import SyntaxExport.Document.Event
import SyntaxExport.Proofs.Document.Lockstep

/-!
# Traced writers

A traced writer keeps the commands that it was given, also those that it rejects. In everything else
it is the writer inside it (`Traced.lockstep`).
-/

namespace SyntaxExport

/-- A writer with the commands that it was given. -/
structure Traced (σ : Type) where
  writer : σ
  commands : List Command := []

/-- The event that a command stands for. -/
def Command.event? : Command → Option Event
  | .call c => some (.ofCall c)
  | .finish => none

namespace Traced

variable {σ : Type}

/-- The events of the calls that the writer was given. -/
def events (t : Traced σ) : List Event :=
  t.commands.filterMap Command.event?

variable [DocumentWriter σ]

instance : DocumentWriter (Traced σ) where
  call c t :=
    let (answer, writer) := DocumentWriter.call c t.writer
    (answer, ⟨writer, t.commands ++ [.call c]⟩)
  finish t :=
    let (answer, writer) := DocumentWriter.finish t.writer
    (answer, ⟨writer, t.commands ++ [.finish]⟩)

theorem events_call (c : Call) (t : Traced σ) :
    (DocumentWriter.call c t).2.events = t.events ++ [.ofCall c] :=
  List.filterMap_append

theorem events_finish (t : Traced σ) : (DocumentWriter.finish t).2.events = t.events :=
  List.filterMap_append.trans (List.append_nil _)

theorem lockstep : Lockstep fun (t : Traced σ) (w : σ) => t.writer = w where
  call _ h := h ▸ ⟨rfl, rfl⟩
  finish h := h ▸ ⟨rfl, rfl⟩

end Traced

end SyntaxExport
