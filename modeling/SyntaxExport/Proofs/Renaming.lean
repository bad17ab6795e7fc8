import SyntaxExport.Proofs.Pruning
import SyntaxExport.Proofs.Renaming.Pass
import SyntaxExport.Proofs.Renumbering

/-!
# Documents that do not depend on positions

A document with numbered identities tells nothing about the positions of nodes. It is the same, call
by call, for a context in which the nodes and files stand in other places, among whatever other nodes
and files (`Session.write_copiedInto`).
-/

namespace SyntaxExport

variable {ρ : Renaming} {ctx ctx' : Context}

theorem Id.ofSize_toNat {a : Arena} (id : Id a) : Id.ofSize id.toNat = id := by
  cases id
  exact congrArg Id.mk UInt32.ofNat_toNat

theorem FileId.ofSize_toNat (f : FileId) : FileId.ofSize f.toNat = f := by
  cases f
  exact congrArg FileId.mk UInt32.ofNat_toNat

namespace Context.CopiedInto

variable (h : ctx.CopiedInto ρ ctx') {root : DeclId} {opts : Options}

include h

theorem check (hcheck : opts.check ctx root = .ok ()) : opts.check ctx' (ρ.decl root) = .ok () := by
  rw [Options.check] at hcheck ⊢
  cases hvalidate : opts.validate with
  | error e =>
    rw [hvalidate] at hcheck
    cases hcheck
  | ok =>
    simp only [hvalidate, checkRoot] at hcheck ⊢
    cases hd : ctx.decl? root with
    | none =>
      rw [hd] at hcheck
      cases hcheck
    | some d =>
      simp only [hd] at hcheck
      simp only [h.decl hd, Decl.kind_rename]
      exact hcheck

/-- Where the document of a unit is written to its end, so is the document of the renamed unit, with
the same calls of the writer. -/
theorem carries_runPass {σ : Type} [DocumentWriter σ] (hmode : opts.identityMode = .anonymized)
    (hfilter : opts.FiltersFiles) :
    PassStep.Carries ρ (Session.runPass ctx root opts : PassStep σ)
      (Session.runPass ctx' (ρ.decl root) opts) := by
  refine Pass.carries_all (.cons ?_ (.cons ?_ .nil))
  · intro p p' q hp hq
    obtain ⟨q', hq', hrenamed⟩ := Pass.carries_site h hmode (h.keepsRenamed hfilter) _ _ p p' q hp hq
    -- the other context may have fewer or more nodes, and so another bound
    exact ⟨q', Pass.site_nestingBound hq', hrenamed⟩
  · intro p p' q hp hq
    simp only [hp.writer] at hq ⊢
    split at hq
    · cases hq
      exact ⟨_, rfl, hp.cursor, hp.identities, rfl⟩
    · cases hq

end Context.CopiedInto

namespace Session

/-- A document with numbered identities depends on the order of its nodes alone. Where it can be
written for a context, it can be written for every context with renamed copies of the nodes, and
leaves the writer in the same state, with the same calls in its log and the same text. -/
theorem write_copiedInto {σ : Type} [DocumentWriter σ] (h : ctx.CopiedInto ρ ctx') (root : DeclId)
    {opts : Options} (hmode : opts.identityMode = .anonymized) (hfilter : opts.FiltersFiles) (w : σ)
    (hok : (({} : Session).write ctx root opts w).1 = .ok ()) :
    (({} : Session).write ctx' (ρ.decl root) opts w).1 = .ok () ∧
    (({} : Session).write ctx' (ρ.decl root) opts w).2.2
      = (({} : Session).write ctx root opts w).2.2 := by
  have hfresh : ¬ ({} : Session).inUse = true := Bool.false_ne_true
  rw [write, if_neg hfresh] at hok ⊢
  rw [write, if_neg hfresh]
  cases hcheck : opts.check ctx root with
  | error e =>
    rw [hcheck] at hok
    cases hok
  | ok =>
    simp only [hcheck] at hok
    simp only [h.check hcheck]
    cases hrun : runPass ctx root opts ⟨{}, ({} : Session).identities, w⟩ with
    | mk result q =>
      cases result with
      | error e =>
        rw [hrun] at hok
        cases hok
      | ok =>
        have hstart : Pass.Renamed ρ ⟨{}, ({} : Session).identities, w⟩
            ⟨{}, ({} : Session).identities, w⟩ := ⟨rfl, IdentityTable.renamed_empty, rfl⟩
        obtain ⟨q', hrun', hrenamed⟩ := h.carries_runPass hmode hfilter _ _ q hstart hrun
        rw [hrun']
        exact ⟨rfl, hrenamed.writer⟩

/-- The unit `headerUnit` with its declarations in the opposite order, behind another one, and its
files the other way around, before another one. -/
def movedUnit : Context where
  files := #["list.h", "main.cpp", "unused.h"]
  decls := #[{ kind := .empty },
    { kind := .var, range := .point ⟨⟨1⟩, 3, 3⟩, payload := .var {} },
    { kind := .function, range := .point ⟨⟨0⟩, 9, 1⟩, payload := .function {} },
    { kind := .namespaceDecl, range := .point ⟨⟨1⟩, 2, 1⟩, context := some { decls := [⟨2⟩, ⟨1⟩] },
      payload := .namespaceDecl {} },
    { kind := .cxxRecord, range := .point ⟨⟨0⟩, 3, 1⟩, payload := .record {} },
    { kind := .translationUnit, context := some { decls := [⟨4⟩, ⟨3⟩] } }]

/-- Counting back from a word gives different words for different words. -/
theorem sub_injective (k : UInt32) : Function.Injective (k - ·) :=
  fun _ _ h => UInt32.sub_right_inj k |>.mp h

/-- Where the nodes of `headerUnit` stand in `movedUnit`. -/
def moves : Renaming where
  decl := ⟨fun id => ⟨5 - id.index⟩, fun a b hab => by
    cases a
    cases b
    exact congrArg Id.mk (sub_injective 5 (congrArg Id.index hab))⟩
  stmt := .refl _
  comment := .refl _
  attr := .refl _
  temporary := .refl _
  file := ⟨fun f => ⟨1 - f.index⟩, fun a b hab => by
    cases a
    cases b
    exact congrArg FileId.mk (sub_injective 1 (congrArg FileId.index hab))⟩

theorem copiedInto_movedUnit : headerUnit.CopiedInto moves movedUnit where
  file {f name} hf := by
    have hnames : ∀ i < 2, movedUnit.fileName? (moves.file (.ofSize i))
        = headerUnit.fileName? (.ofSize i) := by decide
    have hmoved := hnames f.toNat (Array.getElem?_eq_some_iff.mp hf).1
    rw [FileId.ofSize_toNat, hf] at hmoved
    exact hmoved
  decl {id d} hd := by
    have hdecls : ∀ i < 5, movedUnit.decl? (moves.decl (.ofSize i))
        = (headerUnit.decl? (.ofSize i)).map (Decl.rename moves) := by decide
    have hmoved := hdecls id.toNat (Array.getElem?_eq_some_iff.mp hd).1
    rw [Id.ofSize_toNat, hd] at hmoved
    exact hmoved
  stmt := nofun
  comment := nofun
  attr := nofun
  types := by simp [movedUnit, headerUnit]

/-- Without the declarations of the header, both units have the same document. -/
theorem write_copiedInto_movedUnit :
    headerUnit.CopiedInto moves movedUnit ∧
    ({ filter := some (.skipFiles ["list.h"]) } : Options).FiltersFiles ∧
    (({} : Session).write headerUnit ⟨0⟩ { filter := some (.skipFiles ["list.h"]) }
      ({} : Recorder)).1 = .ok () ∧
    (({} : Session).write movedUnit ⟨5⟩ { filter := some (.skipFiles ["list.h"]) }
      ({} : Recorder)).1 = .ok () ∧
    (({} : Session).write movedUnit ⟨5⟩ { filter := some (.skipFiles ["list.h"]) }
        ({} : Recorder)).2.2
      = (({} : Session).write headerUnit ⟨0⟩ { filter := some (.skipFiles ["list.h"]) }
        ({} : Recorder)).2.2 := by
  have hfilter : ({ filter := some (.skipFiles ["list.h"]) } : Options).FiltersFiles := by
    rintro f ⟨⟩
    exact ⟨_, rfl⟩
  have hok : (({} : Session).write headerUnit ⟨0⟩ { filter := some (.skipFiles ["list.h"]) }
      ({} : Recorder)).1 = .ok () := by
    rw [(recorded_write headerUnit ⟨0⟩ _ (s := {}) rfl).1]
    decide +kernel
  have hroot : moves.decl ⟨0⟩ = ⟨5⟩ := rfl
  have hmoved := write_copiedInto copiedInto_movedUnit ⟨0⟩ rfl hfilter ({} : Recorder) hok
  rw [hroot] at hmoved
  exact ⟨copiedInto_movedUnit, hfilter, hok, hmoved⟩

end Session

end SyntaxExport
