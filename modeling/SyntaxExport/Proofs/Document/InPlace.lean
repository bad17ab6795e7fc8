import Mathlib.Tactic.SplitIfs
import SyntaxExport.Proofs.Document.Accepts

/-!
# Writers in place

The operations of scopes and writers give a new state or an error, so there is nothing that an error
could leave half done. A writer that changes its state in place makes one check, change or partial
write after the other, and what comes before an error stays. The programs below are the operations in
that form. They leave exactly the states that the operations give (`exec_tagInPlace` and its like,
`TextWriter.exec_callInPlace`).
-/

namespace SyntaxExport

/-- A program on a mutable state. An error ends it, and the changes made up to there stay. -/
abbrev InPlace (σ : Type) := ExceptT WriteError (StateM σ)

namespace InPlace

variable {σ τ α β : Type}

/-- The answer of a program and the state that it leaves. -/
def exec (m : InPlace σ α) (s : σ) : Except WriteError α × σ :=
  m.run.run s

@[simp] theorem exec_pure (a : α) (s : σ) : exec (pure a) s = (.ok a, s) := rfl

@[simp] theorem exec_throw (e : WriteError) (s : σ) :
    exec (throw e : InPlace σ α) s = (.error e, s) := rfl

@[simp] theorem exec_get (s : σ) : exec get s = (.ok s, s) := rfl

@[simp] theorem exec_set (s t : σ) : exec (set t) s = (.ok (), t) := rfl

@[simp] theorem exec_modify (f : σ → σ) (s : σ) : exec (modify f) s = (.ok (), f s) := rfl

/-- What follows a program runs from the state that the program leaves, unless it ends in an error. -/
@[simp] theorem exec_bind (m : InPlace σ α) (k : α → InPlace σ β) (s : σ) :
    exec (m >>= k) s = match exec m s with
      | (.ok a, t) => exec (k a) t
      | (.error e, t) => (.error e, t) := by
  change (match m.run.run s with | (a, t) => ExceptT.bindCont k a t) = _
  unfold exec
  rcases m.run.run s with ⟨_ | a, t⟩ <;> rfl

/-- Forgets the result of a program. -/
def ignore (m : InPlace σ α) : InPlace σ Unit := do
  let _ ← m
  return

/-- A check, which ends a program where it fails. -/
def refuse (c : Prop) [Decidable c] (e : WriteError) : InPlace σ Unit :=
  if c then throw e else pure ()

@[simp] theorem exec_refuse (c : Prop) [Decidable c] (e : WriteError) (s : σ) :
    exec (refuse c e) s = (if c then .error e else .ok (), s) := by
  rw [refuse]
  split <;> rfl

/-- A part of a program that is left out where a condition fails. -/
def whenever (c : Prop) [Decidable c] (m : InPlace σ Unit) : InPlace σ Unit :=
  if c then m else pure ()

@[simp] theorem exec_ite (c : Prop) [Decidable c] (m n : InPlace σ α) (s : σ) :
    exec (if c then m else n) s = if c then exec m s else exec n s := by
  split <;> rfl

/-- Runs a program on a part of a state. -/
def zoom (part : σ → τ) (put : τ → σ → σ) (m : InPlace τ α) : InPlace σ α := fun s =>
  ((m.exec (part s)).1, put (m.exec (part s)).2 s)

theorem exec_zoom (part : σ → τ) (put : τ → σ → σ) (m : InPlace τ α) (s : σ) :
    exec (zoom part put m) s = ((exec m (part s)).1, put (exec m (part s)).2 s) := rfl

end InPlace

open InPlace

/-! ### Scopes -/

namespace ScopeStack

/-- The outcome of an operation whose errors leave the scopes alone. -/
def outcome {α : Type} (s : ScopeStack) :
    Except WriteError (α × ScopeStack) → Except WriteError α × ScopeStack
  | .ok (a, t) => (.ok a, t)
  | .error e => (.error e, s)

/-- The innermost scope. -/
def top : InPlace ScopeStack Frame := do
  match (← get).frames with
  | [] => throw .finished
  | f :: _ => return f

/-- Changes the innermost scope. -/
def modifyTop (g : Frame → Frame) : InPlace ScopeStack Unit :=
  modify fun s => ⟨s.frames.modifyHead g⟩

def tagInPlace : InPlace ScopeStack Nat := do
  let f ← top
  refuse (f.kind ≠ .object) (.tagOutsideObject f.kind)
  refuse f.tagged .doubleTag
  refuse (f.emitted = f.arity) (.overflow f.kind f.arity)
  modifyTop ({ · with tagged := true })
  return f.emitted

def valueInPlace : InPlace ScopeStack Slot := do
  let f ← top
  if f.kind = .object then
    refuse (¬f.tagged) .missingTag
    modifyTop ({ · with tagged := false })
  else refuse (f.emitted = f.arity) (.overflow f.kind f.arity)
  modifyTop fun g => { g with emitted := g.emitted + 1 }
  return ⟨f.kind, f.emitted⟩

def enterInPlace (kind : ScopeKind) (arity : Nat) : InPlace ScopeStack Slot := do
  let slot ← valueInPlace
  modify fun s => ⟨{ kind := kind, arity := arity } :: s.frames⟩
  return slot

def closeInPlace : InPlace ScopeStack Frame := do
  match (← get).frames with
  | [] => throw .finished
  | [_] => throw .noOpenScope
  | _ => pure ()
  let f ← top
  refuse (f.tagged ∨ f.emitted ≠ f.arity) (.underflow f.kind f.arity f.emitted)
  modify fun s => ⟨s.frames.tail⟩
  return f

def finishInPlace : InPlace ScopeStack Unit := do
  match (← get).frames with
  | [] => throw .finished
  | [f] =>
    refuse (f.emitted = 0) .emptyDocument
    set (⟨[]⟩ : ScopeStack)
  | _ :: outer => throw (.unclosed outer.length)

@[simp] theorem exec_top_cons (f : Frame) (outer : List Frame) :
    top.exec ⟨f :: outer⟩ = (.ok f, ⟨f :: outer⟩) := rfl

@[simp] theorem exec_modifyTop (g : Frame → Frame) (f : Frame) (outer : List Frame) :
    (modifyTop g).exec ⟨f :: outer⟩ = (.ok (), ⟨g f :: outer⟩) := rfl

theorem exec_tagInPlace (s : ScopeStack) : tagInPlace.exec s = s.outcome s.tag := by
  obtain ⟨_ | ⟨f, outer⟩⟩ := s
  · rfl
  · rw [tagInPlace, tag]
    simp only [exec_bind, exec_top_cons, exec_refuse, exec_pure]
    split_ifs <;> rfl

theorem exec_valueInPlace (s : ScopeStack) : valueInPlace.exec s = s.outcome s.value := by
  obtain ⟨_ | ⟨f, outer⟩⟩ := s
  · rfl
  · rw [valueInPlace, value]
    simp only [exec_bind, exec_top_cons, exec_ite, exec_refuse, exec_pure]
    split_ifs <;> rfl

theorem exec_enterInPlace (kind : ScopeKind) (arity : Nat) (s : ScopeStack) :
    (enterInPlace kind arity).exec s = s.outcome (s.enter kind arity) := by
  simp only [enterInPlace, exec_bind, exec_valueInPlace, exec_modify, exec_pure, enter]
  cases s.value <;> rfl

theorem exec_closeInPlace (s : ScopeStack) : closeInPlace.exec s = s.outcome s.close := by
  obtain ⟨_ | ⟨f, _ | ⟨g, outer⟩⟩⟩ := s
  · rfl
  · rfl
  · rw [closeInPlace, close]
    simp only [exec_bind, exec_get, exec_pure, exec_top_cons, exec_refuse, exec_modify]
    split_ifs <;> rfl

/-- The end of a document has no result but the scopes after it. -/
theorem exec_finishInPlace (s : ScopeStack) :
    finishInPlace.exec s = s.outcome (((), ·) <$> s.finish) := by
  obtain ⟨_ | ⟨f, _ | ⟨g, outer⟩⟩⟩ := s
  · rfl
  · rw [finishInPlace, finish]
    simp only [exec_bind, exec_get, exec_refuse, exec_set]
    split_ifs <;> rfl
  · rfl

/-- An operation of which only the scopes matter. -/
theorem exec_ignore {α : Type} {m : InPlace ScopeStack α} {s : ScopeStack}
    {x : Except WriteError (α × ScopeStack)} (h : m.exec s = s.outcome x) :
    (ignore m).exec s = s.outcome (((), ·) <$> (·.2) <$> x) := by
  rw [ignore, exec_bind, h]
  cases x <;> rfl

/-- Accounts for the token of a call. -/
def accountInPlace : Call → InPlace ScopeStack Unit
  | .container shape arity => ignore (enterInPlace shape.scope arity)
  | .variant _ => ignore (enterInPlace .variant 1)
  | .close => ignore closeInPlace
  | .tag _ => ignore tagInPlace
  | .leaf _ => ignore valueInPlace

theorem exec_accountInPlace (c : Call) (s : ScopeStack) :
    (accountInPlace c).exec s = s.outcome (((), ·) <$> s.account c) := by
  cases c with
  | container shape arity => exact exec_ignore (exec_enterInPlace shape.scope arity s)
  | variant tag => exact exec_ignore (exec_enterInPlace .variant 1 s)
  | close => exact exec_ignore (exec_closeInPlace s)
  | tag name => exact exec_ignore (exec_tagInPlace s)
  | leaf x => exact exec_ignore (exec_valueInPlace s)

end ScopeStack

/-! ### Recorders -/

namespace Recorder

/-- Runs a program on the scopes. -/
def onScopes {α : Type} : InPlace ScopeStack α → InPlace Recorder α :=
  zoom Recorder.scopes fun s r => { r with scopes := s }

def callInPlace (c : Call) : InPlace Recorder Unit := do
  onScopes (ScopeStack.accountInPlace c)
  modify fun r => { r with depth := c.depthAfter r.depth }
  modify fun r => { r with maxDepth := max r.maxDepth r.depth }
  modify fun r => { r with events := r.events.push (.ofCall c) }

def finishInPlace : InPlace Recorder Unit :=
  onScopes ScopeStack.finishInPlace

theorem exec_callInPlace (c : Call) (r : Recorder) : (callInPlace c).exec r = r.call c := by
  simp only [callInPlace, exec_bind, onScopes, exec_zoom, ScopeStack.exec_accountInPlace,
    exec_modify, call]
  cases r.scopes.account c <;> rfl

theorem exec_finishInPlace (r : Recorder) : finishInPlace.exec r = r.finish := by
  simp only [finishInPlace, onScopes, exec_zoom, ScopeStack.exec_finishInPlace, finish]
  cases r.scopes.finish <;> rfl

end Recorder

/-! ### Sinks -/

theorem extract_of_size_le {bytes : ByteArray} {n : Nat} (h : bytes.size ≤ n) :
    bytes.extract 0 n = bytes := by
  rw [← Nat.max_eq_left h]
  exact ByteArray.extract_zero_max_size

namespace Sink

/-- A sink with a capacity takes as much of a text as it has room for. -/
theorem write_eq_of_capacity {s : Sink} {capacity : Nat} (h : s.capacity = some capacity)
    (text : String) : s.write text = (decide (text.toUTF8.size ≤ capacity - s.bytes.size),
      { s with bytes := s.bytes ++ text.toUTF8.extract 0 (capacity - s.bytes.size) }) := by
  rw [write, h]
  dsimp only
  split
  · next hfits => rw [decide_eq_true hfits, extract_of_size_le hfits]
  · next hfits => rw [decide_eq_false hfits]

theorem write_empty (s : Sink) : s.write "" = (true, s) := by
  obtain ⟨bytes, capacity, flushFails⟩ := s
  cases capacity <;> simp [write]

/-- A text may be handed over in two parts, the second where the first fits. -/
theorem write_append (s : Sink) (a b : String) : s.write (a ++ b) = match s.write a with
    | (true, s) => s.write b
    | (false, s) => (false, s) := by
  obtain ⟨bytes, capacity, flushFails⟩ := s
  cases capacity with
  | none => simp [write_eq_of_unlimited, ByteArray.append_assoc]
  | some capacity =>
    have hsize : (a ++ b).toUTF8.size = a.toUTF8.size + b.toUTF8.size := by simp
    rw [write_eq_of_capacity rfl, write_eq_of_capacity rfl, hsize]
    dsimp only
    have hdata : (a ++ b).toUTF8 = a.toUTF8 ++ b.toUTF8 := by simp
    rw [hdata, ByteArray.extract_append, Nat.zero_sub]
    by_cases ha : a.toUTF8.size ≤ capacity - bytes.size
    · rw [decide_eq_true ha]
      dsimp only
      rw [write_eq_of_capacity rfl, extract_of_size_le ha]
      dsimp only
      have hroom : capacity - (bytes ++ a.toUTF8).size
          = capacity - bytes.size - a.toUTF8.size := by
        rw [ByteArray.size_append]
        omega
      have hfits : (a.toUTF8.size + b.toUTF8.size ≤ capacity - bytes.size)
          = (b.toUTF8.size ≤ capacity - bytes.size - a.toUTF8.size) := by
        rw [Nat.add_comm, Nat.le_sub_iff_add_le ha]
      simp only [hroom, hfits, ByteArray.append_assoc]
    · have hnone : capacity - bytes.size - a.toUTF8.size = 0 := by omega
      have hlong : ¬a.toUTF8.size + b.toUTF8.size ≤ capacity - bytes.size := by omega
      rw [decide_eq_false ha, decide_eq_false hlong, hnone, ByteArray.extract_same,
        ByteArray.append_empty]

end Sink

/-! ### Text writers -/

namespace TextWriter

/-- Runs a program on the scopes. -/
def onScopes {α : Type} : InPlace ScopeStack α → InPlace TextWriter α :=
  zoom (·.state.scopes) fun s w => { w with state := { w.state with scopes := s } }

def readFormat : InPlace TextWriter TextFormat := do
  return (← get).format

def readIndent : InPlace TextWriter Nat := do
  return (← get).state.indent

/-- Hands a text to the sink. -/
def put (text : String) : InPlace TextWriter Unit := do
  let w ← get
  set { w with sink := (w.sink.write text).2 }
  refuse (¬(w.sink.write text).1) .io

/-- Hands a text to the sink several times. -/
def putTimes (text : String) : Nat → InPlace TextWriter Unit
  | 0 => pure ()
  | n + 1 => do
    put text
    putTimes text n

def newline : InPlace TextWriter Unit := do
  whenever (← readFormat).pretty do
    put "\n"
    putTimes "  " (← readIndent)

/-- What separates a value from what stands before it. -/
def separate (slot : Slot) : InPlace TextWriter Unit :=
  whenever (slot.container = .array ∨ slot.container = .tuple) do
    whenever (slot.index > 0) (put ",")
    newline

def putQuoted (text : String) : InPlace TextWriter Unit := do
  put "\""
  put (escape text)
  put "\""

def setIndent (g : Nat → Nat) : InPlace TextWriter Unit :=
  modify fun w => { w with state := { w.state with indent := g w.state.indent } }

def scalarInPlace : Scalar → InPlace TextWriter Unit
  | .string s => putQuoted s
  | .integer i => put (toString i)
  | .unsigned n => put (toString n)
  | .boolean b => put (if b then "true" else "false")
  | .simple tag => do
    match (← readFormat).dialect with
    | .json => putQuoted tag
    | .yojson =>
      put "<"
      putQuoted tag
      put ">"

/-- The start of a variant, up to its argument. -/
def variantStart (tag : String) : InPlace TextWriter Unit := do
  let f ← readFormat
  let marks := match f.dialect with
    | .json => ("[", ",")
    | .yojson => ("<", ":")
  put marks.1
  putQuoted tag
  put marks.2
  whenever f.pretty (put " ")

def callInPlace : Call → InPlace TextWriter Unit
  | .container shape arity => do
    let slot ← onScopes (ScopeStack.enterInPlace shape.scope arity)
    separate slot
    put ((← readFormat).opener shape)
    setIndent (· + 1)
  | .variant tag => do
    let slot ← onScopes (ScopeStack.enterInPlace .variant 1)
    separate slot
    variantStart tag
  | .close => do
    let frame ← onScopes ScopeStack.closeInPlace
    whenever (frame.kind ≠ .variant) do
      setIndent (· - 1)
      whenever (frame.arity > 0) newline
    put ((← readFormat).closer frame.kind)
  | .tag name => do
    let index ← onScopes ScopeStack.tagInPlace
    whenever (index > 0) (put ",")
    newline
    putQuoted name
    put (if (← readFormat).pretty then ": " else ":")
  | .leaf x => do
    let slot ← onScopes ScopeStack.valueInPlace
    separate slot
    scalarInPlace x

/-- The line break at the end of a document. -/
def endLine : InPlace TextWriter Unit := do
  whenever (← readFormat).pretty (put "\n")

def finishInPlace : InPlace TextWriter Unit := do
  onScopes ScopeStack.finishInPlace
  endLine
  refuse (← get).sink.flushFails .io

/-! #### Parts of a text -/

/-- A program hands a text to the sink and goes from the format, scopes and indentation of `w` to those
of `t`. Where the sink does not take the whole text, it stays at those of `w`. -/
def PutsTo (m : InPlace TextWriter Unit) (w : TextWriter) (text : String) (t : TextWriter) : Prop :=
  ∀ sink, m.exec { w with sink := sink } =
    if (sink.write text).1 then (.ok (), { t with sink := (sink.write text).2 })
    else (.error .io, { w with sink := (sink.write text).2 })

theorem PutsTo.exec {m : InPlace TextWriter Unit} {w t : TextWriter} {text : String}
    (h : PutsTo m w text t) : m.exec w =
      if (w.sink.write text).1 then (.ok (), { t with sink := (w.sink.write text).2 })
      else (.error .io, { w with sink := (w.sink.write text).2 }) :=
  h w.sink

/-- A program does nothing but hand a text to the sink. -/
abbrev Puts (m : InPlace TextWriter Unit) (w : TextWriter) (text : String) : Prop :=
  PutsTo m w text w

namespace Puts

variable {m n : InPlace TextWriter Unit} {w t : TextWriter} {a b : String}

theorem put (text : String) (w : TextWriter) : Puts (put text) w text := by
  intro sink
  simp only [TextWriter.put, exec_bind, exec_get, exec_set, exec_refuse]
  cases (sink.write text).1 <;> rfl

theorem nothing (w : TextWriter) : Puts (pure ()) w "" := by
  intro sink
  rw [Sink.write_empty]
  rfl

theorem seq (hm : Puts m w a) (hn : PutsTo n w b t) : PutsTo (do m; n) w (a ++ b) t := by
  intro sink
  rw [exec_bind, hm sink, Sink.write_append]
  rcases sink.write a with ⟨_ | _, sink₁⟩
  · rfl
  · exact hn sink₁

/-- The indentation changes after the text, and only where the sink takes all of it. -/
theorem setIndent (hm : Puts m w a) (g : Nat → Nat) : PutsTo (do m; setIndent g) w a
    { w with state := { w.state with indent := g w.state.indent } } := by
  intro sink
  rw [exec_bind, hm sink]
  rcases sink.write a with ⟨_ | _, sink₁⟩
  · rfl
  · rfl

theorem whenever (c : Prop) [Decidable c] (hm : Puts m w a) :
    Puts (whenever c m) w (if c then a else "") := by
  rw [InPlace.whenever]
  split
  · exact hm
  · exact nothing w

/-- The sink has no say in the format. -/
theorem onFormat {k : TextFormat → InPlace TextWriter Unit} (h : PutsTo (k w.format) w a t) :
    PutsTo (readFormat >>= k) w a t := h

theorem onIndent {k : Nat → InPlace TextWriter Unit} (h : PutsTo (k w.state.indent) w a t) :
    PutsTo (readIndent >>= k) w a t := h

theorem times (text : String) (w : TextWriter) :
    ∀ n, Puts (putTimes text n) w (String.join (List.replicate n text))
  | 0 => nothing w
  | n + 1 => by
    rw [putTimes, List.replicate_succ, String.join_cons]
    exact (put text w).seq (times text w n)

theorem newline (w : TextWriter) : Puts newline w (w.format.newline w.state.indent) :=
  onFormat (whenever _ ((put "\n" w).seq (onIndent (times "  " w _))))

theorem separate (slot : Slot) (w : TextWriter) :
    Puts (separate slot) w (w.format.separator w.state.indent slot) :=
  whenever _ ((whenever _ (put "," w)).seq (newline w))

theorem quoted (text : String) (w : TextWriter) : Puts (putQuoted text) w (quoted text) := by
  rw [SyntaxExport.quoted, String.append_assoc]
  exact (put _ w).seq ((put _ w).seq (put _ w))

theorem variantStart (tag : String) (w : TextWriter) :
    Puts (variantStart tag) w (w.format.variantStart tag) := by
  refine onFormat ?_
  rw [TextFormat.variantStart]
  cases w.format.dialect with
  | json | yojson =>
    rw [String.append_assoc, String.append_assoc]
    exact (put _ w).seq ((quoted tag w).seq ((put _ w).seq (whenever _ (put " " w))))

theorem scalar (x : Scalar) (w : TextWriter) : Puts (scalarInPlace x) w (w.format.scalar x) := by
  cases x with
  | string s => exact quoted s w
  | integer i => exact put _ w
  | unsigned n => exact put _ w
  | boolean b => exact put _ w
  | simple tag =>
    refine onFormat ?_
    rw [TextFormat.scalar]
    cases w.format.dialect with
    | json => exact quoted tag w
    | yojson =>
      rw [String.append_assoc]
      exact (put _ w).seq ((quoted tag w).seq (put _ w))

end Puts

/-! #### Calls -/

/-- A program that first changes the scopes comes to what a call comes to, if it does so where the
scopes accept the call, and the call is rejected where they do not. -/
theorem exec_onScopes_bind {α : Type} {m : InPlace ScopeStack α}
    {op : ScopeStack → Except WriteError (α × ScopeStack)} (hm : ∀ s, m.exec s = s.outcome (op s))
    {k : α → InPlace TextWriter Unit} {w : TextWriter} {c : Call}
    (hrejected : ∀ e, op w.state.scopes = .error e → w.state.call w.format c = .error e)
    (haccepted : ∀ a s, op w.state.scopes = .ok (a, s) →
      (k a).exec { w with state := { w.state with scopes := s } } = w.call c) :
    (onScopes m >>= k).exec w = w.call c := by
  rw [exec_bind, onScopes, exec_zoom, hm]
  cases h : op w.state.scopes with
  | error e =>
    rw [call, hrejected e h]
    rfl
  | ok p => exact haccepted p.1 p.2 h

theorem exec_setIndent_bind (g : Nat → Nat) (m : InPlace TextWriter Unit) (w : TextWriter) :
    (do setIndent g; m).exec w
      = m.exec { w with state := { w.state with indent := g w.state.indent } } := rfl

/-- A program that hands over the text of an accepted call comes to what the call comes to. -/
theorem exec_eq_call {c : Call} {m : InPlace TextWriter Unit} {w v : TextWriter} {text : String}
    {state : TextState} (htext : w.state.call w.format c = .ok (text, state))
    (hv : v = { w with state := w.state.cut state })
    (hm : PutsTo m v text { w with state := state }) : m.exec v = w.call c := by
  rw [hv] at hm ⊢
  rw [call, htext]
  exact hm.exec

theorem exec_callInPlace (c : Call) (w : TextWriter) : (callInPlace c).exec w = w.call c := by
  cases c with
  | container shape arity =>
    refine exec_onScopes_bind (ScopeStack.exec_enterInPlace shape.scope arity)
      (fun e h => by simp [TextState.call, h]) fun slot s h => ?_
    refine exec_eq_call (by simp only [TextState.call, h]; rfl) (by simp [TextState.cut]) ?_
    exact (Puts.separate slot _).seq (Puts.onFormat ((Puts.put _ _).setIndent _))
  | variant tag =>
    refine exec_onScopes_bind (ScopeStack.exec_enterInPlace .variant 1)
      (fun e h => by simp [TextState.call, h]) fun slot s h => ?_
    refine exec_eq_call (by simp only [TextState.call, h]; rfl) (by simp [TextState.cut]) ?_
    exact (Puts.separate slot _).seq (Puts.variantStart tag _)
  | close =>
    refine exec_onScopes_bind ScopeStack.exec_closeInPlace
      (fun e h => by simp [TextState.call, h]) fun frame s h => ?_
    by_cases hkind : frame.kind = .variant
    · rw [InPlace.whenever, if_neg (not_not_intro hkind), pure_bind]
      refine exec_eq_call (by simp only [TextState.call, h, if_pos hkind]; rfl)
        (by simp [TextState.cut]) ?_
      exact Puts.onFormat (Puts.put _ _)
    · -- the indentation changes before anything is written
      rw [InPlace.whenever, if_pos hkind, bind_assoc, exec_setIndent_bind]
      refine exec_eq_call (by simp only [TextState.call, h, if_neg hkind]; rfl)
        (by simp [TextState.cut]) ?_
      exact (Puts.whenever _ (Puts.newline _)).seq (Puts.onFormat (Puts.put _ _))
  | tag name =>
    refine exec_onScopes_bind ScopeStack.exec_tagInPlace
      (fun e h => by simp [TextState.call, h]) fun index s h => ?_
    refine exec_eq_call (by simp only [TextState.call, h]; rfl) (by simp [TextState.cut]) ?_
    rw [String.append_assoc]
    exact (Puts.whenever _ (Puts.put "," _)).seq ((Puts.newline _).seq
      ((Puts.quoted name _).seq (Puts.onFormat (Puts.put _ _))))
  | leaf x =>
    refine exec_onScopes_bind ScopeStack.exec_valueInPlace
      (fun e h => by simp [TextState.call, h]) fun slot s h => ?_
    refine exec_eq_call (by simp only [TextState.call, h]; rfl) (by simp [TextState.cut]) ?_
    exact (Puts.separate slot _).seq (Puts.scalar x _)

theorem exec_finishInPlace (w : TextWriter) : finishInPlace.exec w = w.finish := by
  rw [finishInPlace, exec_bind, onScopes, exec_zoom, ScopeStack.exec_finishInPlace]
  cases h : w.state.scopes.finish with
  | error e =>
    simp only [finish, TextState.finish, h]
    rfl
  | ok s =>
    have hline : Puts endLine { w with state := { w.state with scopes := s } }
        (if w.format.pretty then "\n" else "") :=
      Puts.onFormat (Puts.whenever _ (Puts.put "\n" _))
    change (endLine >>= _).exec { w with state := { w.state with scopes := s } } = _
    rw [exec_bind, hline.exec]
    simp only [finish, TextState.finish, h]
    rcases w.sink.write (if w.format.pretty then "\n" else "") with ⟨_ | _, sink⟩
    · rfl
    · simp only [if_true, exec_bind, exec_get, exec_refuse, true_and]
      cases sink.flushFails <;> rfl

end TextWriter

end SyntaxExport
