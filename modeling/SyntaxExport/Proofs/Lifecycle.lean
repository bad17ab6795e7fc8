import Mathlib.Data.List.Induction
import SyntaxExport.Proofs.Document.Trace
import SyntaxExport.Session

/-!
# The life of a session

A session is free until a document breaks off in it, and then in use until it is reset. In between it
refuses every document. A refused document leaves no mark on the session or on its writer, and what
the cursor of a session is does not matter to the next document (`Session.lifecycle`).
-/

namespace SyntaxExport

/-! ### Documents -/

/-- A translation unit to be written, and the writer that takes it. -/
structure Export where
  {σ : Type}
  [takes : DocumentWriter σ]
  ctx : Context
  root : DeclId
  opts : Options
  writer : σ

namespace Export

attribute [instance] takes

variable (e : Export) (s : Session)

/-- What the document comes to in a session. -/
def result : Except ExportError Unit :=
  (s.write e.ctx e.root e.opts e.writer).1

/-- The session after the document. -/
def after : Session :=
  (s.write e.ctx e.root e.opts e.writer).2.1

/-- The writer after the document. -/
def written : e.σ :=
  (s.write e.ctx e.root e.opts e.writer).2.2

/-- The commands that are given to the writer. -/
def commands : List Command :=
  (s.write e.ctx e.root e.opts ({ writer := e.writer } : Traced e.σ)).2.2.commands

/-- The session is free, and options and root pass their checks. -/
def Begins : Prop :=
  s.inUse = false ∧ e.opts.check e.ctx e.root = .ok ()

/-- The document is begun and fails. -/
def Breaks : Prop :=
  e.Begins s ∧ ∃ err, e.result s = .error err

end Export

namespace Session

section

variable {σ : Type} [DocumentWriter σ] {ctx : Context} {root : DeclId} {opts : Options} {s : Session}

theorem write_of_inUse (h : s.inUse = true) (w : σ) :
    s.write ctx root opts w = (.error .sessionInUse, s, w) := by
  rw [write, if_pos h]

theorem write_of_check {err : ExportError} (h : s.inUse = false)
    (hcheck : opts.check ctx root = .error err) (w : σ) :
    s.write ctx root opts w = (.error err, s, w) := by
  rw [write, if_neg (by simp [h]), hcheck]

/-- A document that is begun leaves its session in use if it fails. -/
theorem inUse_write (h : s.inUse = false) (hcheck : opts.check ctx root = .ok ()) (w : σ) :
    (s.write ctx root opts w).2.1.inUse = true ↔ ∃ err, (s.write ctx root opts w).1 = .error err := by
  rw [write, if_neg (by simp [h]), hcheck]
  simp only
  split
  · simp
  · simp

/-- A document starts with a cursor of its own. -/
theorem write_cursor (c : LocationCursor) (h : s.inUse = false) (hcheck : opts.check ctx root = .ok ())
    (w : σ) : ({ s with cursor := c } : Session).write ctx root opts w = s.write ctx root opts w := by
  rw [write, write, if_neg (by simp [h]), if_neg (by simp [h]), hcheck]

end

end Session

namespace Export

variable {e : Export} {s : Session}

/-- A document that is not begun is refused and changes nothing. Of the session, only its use matters
to this. -/
theorem exists_refused (h : ¬e.Begins s) : ∃ err : ExportError, ∀ t : Session, t.inUse = s.inUse →
    ∀ {σ : Type} [DocumentWriter σ] (w : σ),
      t.write e.ctx e.root e.opts w = (.error err, t, w) := by
  cases hs : s.inUse with
  | true => exact ⟨.sessionInUse, fun t ht _ _ w => Session.write_of_inUse ht w⟩
  | false =>
    cases hcheck : e.opts.check e.ctx e.root with
    | error err => exact ⟨err, fun t ht _ _ w => Session.write_of_check ht hcheck w⟩
    | ok => exact absurd ⟨hs, hcheck⟩ h

/-- A refused document gives no command to its writer and leaves the session as it was. -/
theorem refused (h : ¬e.Begins s) :
    e.commands s = [] ∧ e.written s = e.writer ∧ e.after s = s := by
  obtain ⟨err, hwrite⟩ := exists_refused h
  rw [commands, written, after, hwrite s rfl, hwrite s rfl]
  exact ⟨rfl, rfl, rfl⟩

/-- A session is in use after a document if it was before, or the document breaks off. -/
theorem inUse_after : (e.after s).inUse = true ↔ s.inUse = true ∨ e.Breaks s := by
  by_cases h : e.Begins s
  · have hwrite := Session.inUse_write h.1 h.2 e.writer
    have hfree : s.inUse ≠ true := by simp [h.1]
    rw [after, hwrite, or_iff_right hfree, Breaks, and_iff_right h]
    rfl
  · have hbreaks : ¬e.Breaks s := fun hb => h hb.1
    rw [(refused h).2.2, or_iff_left hbreaks]

/-- A document that succeeds leaves its session free. -/
theorem inUse_after_of_ok (h : e.result s = .ok ()) : (e.after s).inUse = false := by
  rw [← Bool.not_eq_true, inUse_after]
  rintro (hs | ⟨-, err, herr⟩)
  · cases h.symm.trans (congrArg (·.1) (Session.write_of_inUse hs e.writer))
  · cases h.symm.trans herr

end Export

/-! ### Operations -/

/-- What is done with a session. -/
inductive Operation where
  | write (e : Export)
  | reset
  | resetIdentities

namespace Session

/-- One operation. -/
def perform (s : Session) : Operation → Session
  | .write e => e.after s
  | .reset => s.reset
  | .resetIdentities => s.resetIdentities

/-- Operations one after the other, whatever they come to. -/
def performAll (s : Session) (ops : List Operation) : Session :=
  ops.foldl perform s

theorem performAll_concat (s : Session) (ops : List Operation) (op : Operation) :
    s.performAll (ops ++ [op]) = (s.performAll ops).perform op := by
  rw [performAll, List.foldl_append]
  rfl

/-- Among the operations on a new session there is a document that broke off, and no reset after it. -/
def BrokeOff (ops : List Operation) : Prop :=
  ∃ (before : List Operation) (e : Export) (after : List Operation),
    ops = before ++ .write e :: after ∧ .reset ∉ after ∧ e.Breaks (({} : Session).performAll before)

theorem brokeOff_concat (ops : List Operation) (op : Operation) : BrokeOff (ops ++ [op]) ↔
    (op ≠ .reset ∧ BrokeOff ops) ∨ ∃ e, op = .write e ∧ e.Breaks (({} : Session).performAll ops) := by
  constructor
  · rintro ⟨before, e, after, hops, hreset, hbreaks⟩
    -- the last operation is the document that broke off, or it comes after it and is no reset
    rcases after.eq_nil_or_concat with rfl | ⟨init, last, rfl⟩
    · obtain ⟨rfl, hop⟩ := List.append_inj' hops rfl
      exact .inr ⟨e, List.singleton_inj.mp hop, hbreaks⟩
    · rw [List.concat_eq_append, ← List.cons_append, ← List.append_assoc] at hops
      obtain ⟨rfl, hop⟩ := List.append_inj' hops rfl
      obtain rfl : op = last := List.singleton_inj.mp hop
      rw [List.concat_eq_append, List.mem_append, List.mem_singleton, not_or] at hreset
      exact .inl ⟨fun h => hreset.2 h.symm, before, e, init, rfl, hreset.1, hbreaks⟩
  · rintro (⟨hop, before, e, after, rfl, hreset, hbreaks⟩ | ⟨e, rfl, hbreaks⟩)
    · refine ⟨before, e, after ++ [op], by simp, ?_, hbreaks⟩
      rw [List.mem_append, List.mem_singleton, not_or]
      exact ⟨hreset, fun h => hop h.symm⟩
    · exact ⟨ops, e, [], rfl, List.not_mem_nil, hbreaks⟩

/-- A session is in use if a document broke off since the last reset. -/
theorem inUse_performAll (ops : List Operation) :
    (({} : Session).performAll ops).inUse = true ↔ BrokeOff ops := by
  induction ops using List.reverseRecOn with
  | nil =>
    constructor
    · intro h
      cases h
    · rintro ⟨before, e, after, hops, -⟩
      simp at hops
  | append_singleton ops op ih =>
    rw [performAll_concat, brokeOff_concat]
    cases op with
    | write e => simp [perform, Export.inUse_after, ih]
    | reset => simp [perform, reset]
    | resetIdentities => simpa [perform, resetIdentities] using ih

/-- A session is in use exactly if a document was begun and failed since the last reset, and then it
refuses every document. A document that is refused, because the session is in use or for its options
or its root, gives no command to its writer and leaves the session as it was. Neither a new numbering
nor the cursor matters to any of this. -/
theorem lifecycle :
    (∀ ops : List Operation, (({} : Session).performAll ops).inUse = true ↔
      ∃ (before : List Operation) (e : Export) (after : List Operation),
        ops = before ++ .write e :: after ∧ .reset ∉ after ∧
        e.Begins (({} : Session).performAll before) ∧
        ∃ err, e.result (({} : Session).performAll before) = .error err) ∧
    (∀ (e : Export) (s : Session), s.inUse = true → e.result s = .error .sessionInUse) ∧
    (∀ (e : Export) (s : Session) (err : ExportError), s.inUse = false →
      e.opts.check e.ctx e.root = .error err → e.result s = .error err) ∧
    (∀ (e : Export) (s : Session), ¬e.Begins s →
      e.commands s = [] ∧ e.written s = e.writer ∧ e.after s = s) ∧
    (∀ s : Session, s.resetIdentities.inUse = s.inUse) ∧
    ∀ (e : Export) (s : Session) (c : LocationCursor),
      e.result { s with cursor := c } = e.result s ∧
      e.commands { s with cursor := c } = e.commands s ∧
      e.written { s with cursor := c } = e.written s ∧
      (e.Begins s → e.after { s with cursor := c } = e.after s) := by
  refine ⟨inUse_performAll, fun e s h => ?_, fun e s err h hcheck => ?_, fun e s h => ?_, fun s => rfl,
    fun e s c => ?_⟩
  · rw [Export.result, write_of_inUse h]
  · rw [Export.result, write_of_check h hcheck]
  · exact Export.refused h
  · by_cases h : e.Begins s
    · have hwrite : ∀ {σ : Type} [DocumentWriter σ] (w : σ),
          ({ s with cursor := c } : Session).write e.ctx e.root e.opts w
            = s.write e.ctx e.root e.opts w := fun w => write_cursor c h.1 h.2 w
      simp only [Export.result, Export.commands, Export.written, Export.after, hwrite, implies_true,
        and_self]
    · obtain ⟨err, hwrite⟩ := Export.exists_refused h
      refine ⟨?_, ?_, ?_, fun hbegins => absurd hbegins h⟩
      · rw [Export.result, Export.result, hwrite s rfl, hwrite { s with cursor := c } rfl]
      · rw [Export.commands, Export.commands, hwrite s rfl, hwrite { s with cursor := c } rfl]
      · rw [Export.written, Export.written, hwrite s rfl, hwrite { s with cursor := c } rfl]

/-- A translation unit without declarations, for a sink that takes no bytes. -/
def fullSinkExport : Export where
  ctx := { decls := #[{ kind := .translationUnit }] }
  root := ⟨0⟩
  opts := {}
  writer := ({ sink := { capacity := some 0 } } : TextWriter)

/-- A new numbering does not free the session of a document that broke off. -/
theorem lifecycle_fullSink :
    (({} : Session).performAll [.write fullSinkExport, .resetIdentities]).inUse = true ∧
    fullSinkExport.result (({} : Session).performAll [.write fullSinkExport, .resetIdentities])
      = .error .sessionInUse := by
  obtain ⟨hbroken, hrefused, -⟩ := lifecycle
  have hinUse := (hbroken [.write fullSinkExport, .resetIdentities]).mpr
    ⟨[], fullSinkExport, [.resetIdentities], rfl, by simp, ⟨rfl, rfl⟩, .write .io, rfl⟩
  exact ⟨hinUse, hrefused fullSinkExport _ hinUse⟩

end Session

end SyntaxExport
