import SyntaxExport.Document.Event
import SyntaxExport.Document.Writer

/-!
# Recording writers

A recorder makes the same checks as every writer and keeps the log of the calls that it accepts.
It follows the depth of its scopes from call to call: the main statements, `depth_call` and
`depth_finish`, say that the followed depth stays the number of scopes open inside the document.
-/

namespace SyntaxExport

/-- The depth of the scopes after a call that is accepted at a depth. -/
def Call.depthAfter (depth : Nat) : Call → Nat
  | .container .. | .variant _ => depth + 1
  | .close => depth - 1
  | .tag _ | .leaf _ => depth

/-- A writer that keeps its log. -/
structure Recorder where
  scopes : ScopeStack := {}
  events : Array Event := #[]
  /-- The depth of the scopes, followed from call to call so that no call counts them. -/
  depth : Nat := 0
  /-- The deepest nesting of scopes so far. -/
  maxDepth : Nat := 0

namespace Recorder

instance : Inhabited Recorder := ⟨{}⟩

/-- The log entry for a call, after which the scopes are `scopes`. -/
def log (r : Recorder) (c : Call) (scopes : ScopeStack) : Recorder where
  scopes := scopes
  events := r.events.push (.ofCall c)
  depth := c.depthAfter r.depth
  maxDepth := max r.maxDepth (c.depthAfter r.depth)

def call (c : Call) (r : Recorder) : Except WriteError Unit × Recorder :=
  match r.scopes.account c with
  | .error e => (.error e, r)
  | .ok scopes => (.ok (), r.log c scopes)

def finish (r : Recorder) : Except WriteError Unit × Recorder :=
  match r.scopes.finish with
  | .error e => (.error e, r)
  | .ok scopes => (.ok (), { r with scopes := scopes })

instance : DocumentWriter Recorder where
  call := call
  finish := finish

def isFinished (r : Recorder) : Bool :=
  r.scopes.isFinished

/-- The recorded document, once it is finished. -/
def document? (r : Recorder) : Option Value :=
  if r.isFinished then Value.ofEvents? r.events.toList else none

/-- Every string value recorded directly after a field tag with a given name. -/
def fieldStrings (r : Recorder) (field : String) : List String :=
  Event.fieldStrings field r.events.toList

/-! ### Depth -/

theorem exists_of_map_snd {ε α β : Type} {x : Except ε (α × β)} {b : β}
    (h : (·.2) <$> x = .ok b) : ∃ a, x = .ok (a, b) := by
  cases x with
  | error e => cases h
  | ok p => exact ⟨p.1, by simpa [Functor.map, Except.map, Prod.ext_iff] using h⟩

theorem depth_of_account {s t : ScopeStack} {c : Call} (h : s.account c = .ok t) :
    t.depth = c.depthAfter s.depth := by
  cases c <;> obtain ⟨_, h⟩ := exists_of_map_snd h
  · exact ScopeStack.depth_of_enter h
  · exact ScopeStack.depth_of_enter h
  · exact ScopeStack.depth_of_close h
  · exact ScopeStack.depth_of_tag h
  · exact ScopeStack.depth_of_value h

theorem depth_call {r : Recorder} (c : Call) (h : r.depth = r.scopes.depth) :
    (call c r).2.depth = (call c r).2.scopes.depth := by
  unfold call
  split
  · exact h
  · next accepted => simp [log, depth_of_account accepted, h]

theorem depth_finish {r : Recorder} (h : r.depth = r.scopes.depth) :
    (finish r).2.depth = (finish r).2.scopes.depth := by
  unfold finish
  split
  · exact h
  · next accepted => simp [ScopeStack.depth_of_finish accepted, h]

end Recorder

end SyntaxExport
