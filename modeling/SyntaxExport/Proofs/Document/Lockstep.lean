import SyntaxExport.Document.Writer

/-!
# Writers side by side

Two writers go in lockstep where they give the same answer to every command and stay related by it.
They then give the same answers to all sequences of commands, whether or not some are rejected on the
way (`Lockstep.performEach`).
-/

namespace SyntaxExport

variable {σ τ : Type}

/-- Two results with the same answer and related states. -/
def Agree (R : σ → τ → Prop) {α : Type} (x : α × σ) (y : α × τ) : Prop :=
  x.1 = y.1 ∧ R x.2 y.2

theorem Agree.exists_eq {R : σ → τ → Prop} {α : Type} {x : α × σ} {y : α × τ} (h : Agree R x y) :
    ∃ a s t, x = (a, s) ∧ y = (a, t) ∧ R s t := by
  obtain ⟨a, s⟩ := x
  obtain ⟨b, t⟩ := y
  obtain ⟨rfl, h⟩ : a = b ∧ R s t := h
  exact ⟨a, s, t, rfl, rfl, h⟩

/-- Related writers give the same answer to every command, and are related after it. -/
structure Lockstep [DocumentWriter σ] [DocumentWriter τ] (R : σ → τ → Prop) : Prop where
  call : ∀ {w : σ} {w' : τ} (c : Call), R w w' →
    Agree R (DocumentWriter.call c w) (DocumentWriter.call c w')
  finish : ∀ {w : σ} {w' : τ}, R w w' → Agree R (DocumentWriter.finish w) (DocumentWriter.finish w')

namespace Command

/-- Makes uses of a writer one after the other, and goes on after those that are rejected. A use is a
list of commands that ends with the first of them that is rejected: a single command, a flag, or a
container around the commands of its body. -/
def performEach [DocumentWriter σ] : List (List Command) → σ → List (Except WriteError Unit) × σ
  | [], w => ([], w)
  | use :: uses, w =>
    let (answer, w) := performAll use w
    let (answers, w) := performEach uses w
    (answer :: answers, w)

end Command

namespace Lockstep

variable [DocumentWriter σ] [DocumentWriter τ] {R : σ → τ → Prop} (h : Lockstep R)

include h

theorem perform {w : σ} {w' : τ} (c : Command) (hw : R w w') : Agree R (c.perform w) (c.perform w') := by
  cases c with
  | call c => exact h.call c hw
  | finish => exact h.finish hw

theorem performAll : ∀ (cs : List Command) {w : σ} {w' : τ}, R w w' →
    Agree R (Command.performAll cs w) (Command.performAll cs w')
  | [], w, w', hw => ⟨rfl, hw⟩
  | c :: cs, w, w', hw => by
    obtain ⟨answer, w₁, w₁', hc, hc', hnext⟩ := (h.perform c hw).exists_eq
    rw [Command.performAll, Command.performAll, hc, hc']
    cases answer with
    | ok => exact performAll cs hnext
    | error e => exact ⟨rfl, hnext⟩

/-- Related writers give the same answers to all uses. -/
theorem performEach : ∀ (uses : List (List Command)) {w : σ} {w' : τ}, R w w' →
    Agree R (Command.performEach uses w) (Command.performEach uses w')
  | [], w, w', hw => ⟨rfl, hw⟩
  | use :: uses, w, w', hw => by
    obtain ⟨hanswer, hnext⟩ := h.performAll use hw
    obtain ⟨hanswers, hlast⟩ := performEach uses hnext
    exact ⟨List.cons_eq_cons.mpr ⟨hanswer, hanswers⟩, hlast⟩

end Lockstep

end SyntaxExport
