/-!
# Scopes with declared sizes

A document is written forward in one pass, and every container declares its number of elements when
it is opened. `ScopeStack` compares the declared numbers with what is written. An object counts
fields, each a tag followed by one value. The outermost frame is the document, which holds one
value; a finished document has no frame left.

Every operation gives either an error or the stack after it, so a rejected operation changes
nothing.
-/

namespace SyntaxExport

/-- The shapes of scopes. -/
inductive ScopeKind where
  | document | object | array | tuple
  /-- A tag with one argument. -/
  | variant
  deriving DecidableEq, Repr

def ScopeKind.name : ScopeKind → String
  | .document => "document"
  | .object => "object"
  | .array => "array"
  | .tuple => "tuple"
  | .variant => "variant"

/-- Why a writer rejects a call. -/
inductive WriteError where
  /-- The sink took less than the whole text. -/
  | io
  | overflow (scope : ScopeKind) (arity : Nat)
  | underflow (scope : ScopeKind) (arity emitted : Nat)
  | missingTag
  | tagOutsideObject (scope : ScopeKind)
  | doubleTag
  | noOpenScope
  | unclosed (depth : Nat)
  | emptyDocument
  | finished
  deriving DecidableEq, Repr

/-- The short name of an error. -/
def WriteError.name : WriteError → String
  | .io => "Io"
  | .overflow .. => "Overflow"
  | .underflow .. => "Underflow"
  | .missingTag => "MissingTag"
  | .tagOutsideObject _ => "TagOutsideObject"
  | .doubleTag => "DoubleTag"
  | .noOpenScope => "NoOpenScope"
  | .unclosed _ => "Unclosed"
  | .emptyDocument => "EmptyDocument"
  | .finished => "Finished"

def WriteError.message : WriteError → String
  | .io => "I/O error while writing document"
  | .overflow scope arity =>
    scope.name ++ " declared " ++ toString arity ++ " elements but another one was emitted"
  | .underflow scope arity emitted =>
    scope.name ++ " closed after " ++ toString emitted ++ " of " ++ toString arity
      ++ " declared elements"
  | .missingTag => "object field value emitted without a preceding tag"
  | .tagOutsideObject scope =>
    "field tag emitted inside " ++ scope.name ++ "; tags belong to objects"
  | .doubleTag => "second field tag emitted before the first one received a value"
  | .noOpenScope => "end of scope requested with no open scope"
  | .unclosed depth => "document finished with " ++ toString depth ++ " scopes still open"
  | .emptyDocument => "document finished without a value"
  | .finished => "document already finished"

/-- An open scope. -/
structure Frame where
  kind : ScopeKind
  /-- The declared number of elements. -/
  arity : Nat
  /-- The number of elements written so far. -/
  emitted : Nat := 0
  /-- Whether a field tag waits for its value. -/
  tagged : Bool := false
  deriving DecidableEq, Repr

/-- The place of a value: its container and its index there. -/
structure Slot where
  container : ScopeKind
  index : Nat
  deriving DecidableEq, Repr

/-- The open scopes, the innermost first. -/
structure ScopeStack where
  frames : List Frame := [{ kind := .document, arity := 1 }]
  deriving DecidableEq, Repr

namespace ScopeStack

instance : Inhabited ScopeStack := ⟨{}⟩

/-- The number of scopes open inside the document. -/
def depth (s : ScopeStack) : Nat :=
  s.frames.length - 1

/-- The innermost scope; a finished document has none. -/
def current? (s : ScopeStack) : Option Frame :=
  s.frames.head?

def isFinished (s : ScopeStack) : Bool :=
  s.frames.isEmpty

/-- Accounts for a field tag and gives the index of the field. -/
def tag (s : ScopeStack) : Except WriteError (Nat × ScopeStack) :=
  match s.frames with
  | [] => .error .finished
  | f :: outer =>
    if f.kind ≠ .object then .error (.tagOutsideObject f.kind)
    else if f.tagged then .error .doubleTag
    else if f.emitted = f.arity then .error (.overflow f.kind f.arity)
    else .ok (f.emitted, ⟨{ f with tagged := true } :: outer⟩)

/-- Accounts for a value and gives its place. -/
def value (s : ScopeStack) : Except WriteError (Slot × ScopeStack) :=
  match s.frames with
  | [] => .error .finished
  | f :: outer =>
    if f.kind = .object then
      if f.tagged then
        .ok (⟨f.kind, f.emitted⟩,
          ⟨{ f with emitted := f.emitted + 1, tagged := false } :: outer⟩)
      else .error .missingTag
    else if f.emitted = f.arity then .error (.overflow f.kind f.arity)
    else .ok (⟨f.kind, f.emitted⟩, ⟨{ f with emitted := f.emitted + 1 } :: outer⟩)

/-- Opens a scope, which is itself a value, and gives its place. -/
def enter (kind : ScopeKind) (arity : Nat) (s : ScopeStack) :
    Except WriteError (Slot × ScopeStack) :=
  match s.value with
  | .error e => .error e
  | .ok (slot, s) => .ok (slot, ⟨{ kind := kind, arity := arity } :: s.frames⟩)

/-- Closes the innermost scope, which must be complete, and gives its frame. -/
def close (s : ScopeStack) : Except WriteError (Frame × ScopeStack) :=
  match s.frames with
  | [] => .error .finished
  | [_] => .error .noOpenScope
  | f :: outer =>
    if f.tagged ∨ f.emitted ≠ f.arity then .error (.underflow f.kind f.arity f.emitted)
    else .ok (f, ⟨outer⟩)

/-- Ends the document, which must hold its value. -/
def finish (s : ScopeStack) : Except WriteError ScopeStack :=
  match s.frames with
  | [] => .error .finished
  | [f] => if f.emitted = 0 then .error .emptyDocument else .ok ⟨[]⟩
  | _ :: outer => .error (.unclosed outer.length)

/-! ### Depth -/

theorem depth_of_tag {s t : ScopeStack} {i : Nat} (h : s.tag = .ok (i, t)) :
    t.depth = s.depth := by
  grind [tag, depth]

theorem depth_of_value {s t : ScopeStack} {slot : Slot} (h : s.value = .ok (slot, t)) :
    t.depth = s.depth := by
  grind [value, depth]

theorem depth_of_enter {s t : ScopeStack} {kind : ScopeKind} {arity : Nat} {slot : Slot}
    (h : s.enter kind arity = .ok (slot, t)) : t.depth = s.depth + 1 := by
  grind [enter, value, depth]

theorem depth_of_close {s t : ScopeStack} {f : Frame} (h : s.close = .ok (f, t)) :
    t.depth = s.depth - 1 := by
  grind [close, depth]

theorem depth_of_finish {s t : ScopeStack} (h : s.finish = .ok t) : t.depth = s.depth := by
  grind [finish, depth]

end ScopeStack

end SyntaxExport
