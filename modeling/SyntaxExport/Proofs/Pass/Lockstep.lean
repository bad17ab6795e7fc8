import SyntaxExport.Proofs.Document.Lockstep
import SyntaxExport.Proofs.Pass.Script
import SyntaxExport.Session

/-!
# Documents in two writers

What a pass does next depends on its writer in nothing but the answers. So a document that is written
into two writers in lockstep comes to the same in both, with the same cursor and the same numbering
after it (`Lockstep.write`).
-/

namespace SyntaxExport

variable {σ τ : Type}

/-- Two passes that differ in their writers, and these are related. -/
structure Pass.Beside (R : σ → τ → Prop) (p : Pass σ) (q : Pass τ) : Prop where
  cursor : p.cursor = q.cursor
  identities : p.identities = q.identities
  writer : R p.writer q.writer

namespace Lockstep

variable [DocumentWriter σ] [DocumentWriter τ] {R : σ → τ → Prop} (h : Lockstep R)

include h

/-- One call. -/
theorem passCall (c : Call) {p : Pass σ} {q : Pass τ} (hp : p.Beside R q) :
    Agree (Pass.Beside R) (Pass.call c p) (Pass.call c q) := by
  obtain ⟨cursor, identities, w⟩ := p
  obtain ⟨cursor', identities', w'⟩ := q
  obtain ⟨rfl, rfl, hw⟩ := hp
  obtain ⟨answer, w₁, w₁', hc, hc', hnext⟩ := (h.call c hw).exists_eq
  rw [Pass.call, Pass.call, hc, hc']
  cases answer with
  | ok => exact ⟨rfl, rfl, rfl, hnext⟩
  | error e => exact ⟨rfl, rfl, rfl, hnext⟩

/-- One act. -/
theorem act (mode : IdentityMode) (a : Act) {p : Pass σ} {q : Pass τ} (hp : p.Beside R q) :
    Agree (Pass.Beside R) (a.perform mode p) (a.perform mode q) := by
  cases a with
  | call c => exact h.passCall c hp
  | identity n =>
    obtain ⟨cursor, identities, w⟩ := p
    obtain ⟨cursor', identities', w'⟩ := q
    obtain ⟨rfl, rfl, hw⟩ := hp
    exact h.passCall _ ⟨rfl, rfl, hw⟩
  | move loc => exact ⟨rfl, congrArg (·.advance loc) hp.cursor, hp.identities, hp.writer⟩
  | fail e => exact ⟨rfl, hp⟩

/-- Acts up to the first that fails. -/
theorem acts (mode : IdentityMode) : ∀ (as : List Act) {p : Pass σ} {q : Pass τ}, p.Beside R q →
    Agree (Pass.Beside R) (Act.performAll mode as p) (Act.performAll mode as q)
  | [], p, q, hp => ⟨rfl, hp⟩
  | a :: as, p, q, hp => by
    obtain ⟨answer, p₁, q₁, hc, hc', hnext⟩ := (h.act mode a hp).exists_eq
    rw [Act.performAll, Act.performAll, List.map_cons, List.map_cons, Pass.all, Pass.all, hc, hc']
    cases answer with
    | ok => exact acts mode as hnext
    | error e => exact ⟨rfl, hnext⟩

/-- A node with everything inside it. -/
theorem site (ctx : Context) (opts : Options) (fuel : Nat) (s : Site) {p : Pass σ} {q : Pass τ}
    (hp : p.Beside R q) :
    Agree (Pass.Beside R) (Pass.site ctx opts fuel s p) (Pass.site ctx opts fuel s q) := by
  rw [Pass.site_eq_run, Pass.site_eq_run, Pass.run_eq_script, Pass.run_eq_script, hp.cursor]
  exact h.acts opts.identityMode _ hp

/-- A translation unit up to the end of the document. -/
theorem runPass (ctx : Context) (root : DeclId) (opts : Options) {p : Pass σ} {q : Pass τ}
    (hp : p.Beside R q) : Agree (Pass.Beside R) (Session.runPass ctx root opts p)
      (Session.runPass ctx root opts q) := by
  obtain ⟨answer, p₁, q₁, hc, hc', hnext⟩ :=
    (h.site ctx opts ctx.nestingBound (.decl (some root)) hp).exists_eq
  rw [Session.runPass, Session.runPass, Pass.all, Pass.all, hc, hc']
  cases answer with
  | error e => exact ⟨rfl, hnext⟩
  | ok =>
    obtain ⟨answer, w, w', hf, hf', hlast⟩ := (h.finish hnext.writer).exists_eq
    simp only [Pass.all_singleton, hf, hf']
    cases answer with
    | ok => exact ⟨rfl, hnext.cursor, hnext.identities, hlast⟩
    | error e => exact ⟨rfl, hnext.cursor, hnext.identities, hlast⟩

/-- A document comes to the same in both writers, and leaves the same session behind. -/
theorem write (ctx : Context) (root : DeclId) (opts : Options) (s : Session) {w : σ} {w' : τ}
    (hw : R w w') :
    (s.write ctx root opts w).1 = (s.write ctx root opts w').1 ∧
    (s.write ctx root opts w).2.1 = (s.write ctx root opts w').2.1 ∧
    R (s.write ctx root opts w).2.2 (s.write ctx root opts w').2.2 := by
  rw [Session.write, Session.write]
  split
  · exact ⟨rfl, rfl, hw⟩
  · split
    · exact ⟨rfl, rfl, hw⟩
    · have hp : Pass.Beside R (⟨{}, s.identities, w⟩ : Pass σ) (⟨{}, s.identities, w'⟩ : Pass τ) :=
        ⟨rfl, rfl, hw⟩
      obtain ⟨answer, p₁, q₁, hc, hc', hnext⟩ := (h.runPass ctx root opts hp).exists_eq
      obtain ⟨hcursor, hidentities, hlast⟩ := hnext
      rw [hc, hc']
      cases answer with
      | ok =>
        dsimp only
        exact ⟨rfl, by rw [hcursor, hidentities], hlast⟩
      | error e =>
        dsimp only
        exact ⟨rfl, by rw [hcursor, hidentities], hlast⟩

end Lockstep

end SyntaxExport
