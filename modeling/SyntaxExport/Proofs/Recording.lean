import SyntaxExport.Proofs.Document.Log
import SyntaxExport.Proofs.Pass.Balance
import SyntaxExport.Session

/-!
# Documents of sessions

A pass in a fresh writer makes the calls of the filled tree of its translation unit and ends the
document, or it fails as the tree does (`Session.runPass_outcome`). So a session that succeeds ends with
the slots in the state in which filling the tree leaves them, and the outline of its document is that of
the unit (`Session.filled_of_write`).
-/

namespace SyntaxExport

open ScopedWriter (scopes Reliable)

/-- Valid options and a translation unit are not refused. -/
theorem Options.check_of_translationUnit {ctx : Context} {opts : Options} {root : DeclId} {d : Decl}
    (hvalid : opts.validate = .ok ()) (hroot : ctx.decl? root = some d)
    (hunit : d.kind = .translationUnit) : opts.check ctx root = .ok () := by
  rw [check, hvalid]
  simp only [Context.checkRoot, hroot, hunit, if_pos]

namespace Session

/-- A session that succeeds accepted the document, and is free after it. -/
theorem accepted_of_write {σ : Type} [DocumentWriter σ] {ctx : Context} {root : DeclId}
    {opts : Options} {s s' : Session} {w w' : σ} (h : s.write ctx root opts w = (.ok (), s', w')) :
    s.inUse = false ∧ opts.check ctx root = .ok () ∧ s'.inUse = false := by
  rw [write] at h
  split at h
  · cases congrArg Prod.fst h
  · next hs =>
    split at h
    · cases congrArg Prod.fst h
    · next hcheck =>
      split at h
      · cases h
        exact ⟨Bool.eq_false_iff.mpr hs, hcheck, rfl⟩
      · cases congrArg Prod.fst h

section Fresh

variable {σ : Type} [ScopedWriter σ] {w : σ} (hw : Reliable w) (hfresh : scopes w = {})

include hw hfresh

/-- The pass over a document in a fresh writer makes the calls of the filled tree and ends the document,
or it fails as the tree does where a value may stand. -/
theorem runPass_outcome (ctx : Context) (root : DeclId) (opts : Options) (ids : IdentityTable) :
    match (Site.tree ctx opts ctx.nestingBound (.decl (some root))).fill ctx opts ⟨{}, ids⟩ with
    | .ok (v, slots) => ∃ w₁ w', Performs v.tokens w w₁ ∧ DocumentWriter.finish w₁ = (.ok (), w') ∧
        runPass ctx root opts ⟨{}, ids, w⟩ = (.ok (), ⟨slots.cursor, slots.identities, w'⟩)
    | .error e => ∃ p, runPass ctx root opts ⟨{}, ids, w⟩ = (.error e, p) ∧
        (scopes p.writer).TakesValue := by
  have hvalue := ScopedWriter.value_of_fresh hfresh
  have hrun := Pass.run_outcome ctx opts (Site.tree ctx opts ctx.nestingBound (.decl (some root)))
    ⟨{}, ids⟩ hw hvalue
  rw [← Pass.site_eq_run] at hrun
  rw [runPass, Pass.all]
  cases hfill : (Site.tree ctx opts ctx.nestingBound (.decl (some root))).fill ctx opts ⟨{}, ids⟩ with
  | error e =>
    rw [hfill] at hrun
    obtain ⟨p, hp, hplace⟩ := hrun
    rw [Pass.ofSlots] at hp
    simp only [hp]
    exact ⟨p, rfl, hplace⟩
  | ok x =>
    obtain ⟨v, slots⟩ := x
    rw [hfill] at hrun
    obtain ⟨w₁, hp, hcalls, hs, hw₁⟩ := hrun
    -- the document is whole, so its end is accepted
    obtain ⟨w', hfinish, -⟩ := ScopedWriter.finish_ok (s := ⟨[]⟩) hw₁ (by rw [hs]; rfl)
    rw [Pass.ofSlots] at hp
    simp only [hp, Pass.all_singleton, Pass.ofSlots, hfinish]
    exact ⟨w₁, w', hcalls, hfinish, rfl⟩

variable {ctx : Context} {root : DeclId} {opts : Options} {s s' : Session} {w' : σ}

/-- Where the tree of a translation unit can be filled, a session that accepts the unit writes it to the
end of a fresh writer. -/
theorem write_of_fill (hs : s.inUse = false) (hcheck : opts.check ctx root = .ok ()) {v : Value}
    {slots : Slots} (hfill : (Site.tree ctx opts ctx.nestingBound (.decl (some root))).fill ctx opts
      ⟨{}, s.identities⟩ = .ok (v, slots)) :
    ∃ w₁ w', Performs v.tokens w w₁ ∧ DocumentWriter.finish w₁ = (.ok (), w') ∧
      s.write ctx root opts w = (.ok (), ⟨slots.cursor, slots.identities, false⟩, w') := by
  have hpass := runPass_outcome hw hfresh ctx root opts s.identities
  rw [hfill] at hpass
  obtain ⟨w₁, w', hcalls, hfinish, hrun⟩ := hpass
  refine ⟨w₁, w', hcalls, hfinish, ?_⟩
  rw [write, if_neg (by simp [hs]), hcheck]
  simp only [hrun]

/-- Where the tree cannot be filled, the session fails as the tree does. -/
theorem write_of_fill_error (hs : s.inUse = false) (hcheck : opts.check ctx root = .ok ())
    {e : ExportError} (hfill : (Site.tree ctx opts ctx.nestingBound (.decl (some root))).fill ctx opts
      ⟨{}, s.identities⟩ = .error e) : (s.write ctx root opts w).1 = .error e := by
  have hpass := runPass_outcome hw hfresh ctx root opts s.identities
  rw [hfill] at hpass
  obtain ⟨p, hrun, -⟩ := hpass
  rw [write, if_neg (by simp [hs]), hcheck]
  simp only [hrun]

/-- A session that succeeds in a fresh writer writes the filled tree of its translation unit. -/
theorem performs_of_write (h : s.write ctx root opts w = (.ok (), s', w')) : ∃ (v : Value) (w₁ : σ),
      (Site.tree ctx opts ctx.nestingBound (.decl (some root))).fill ctx opts ⟨{}, s.identities⟩
        = .ok (v, ⟨s'.cursor, s'.identities⟩)
      ∧ Performs v.tokens w w₁ ∧ DocumentWriter.finish w₁ = (.ok (), w') := by
  rcases write_cases ctx root opts s w with ⟨e, hrefused⟩ | ⟨-, result, p, hrun, hwrite⟩
  · cases congrArg Prod.fst (h.symm.trans hrefused)
  have hpass := runPass_outcome hw hfresh ctx root opts s.identities
  cases h.symm.trans hwrite
  split at hpass
  · next v slots hfill =>
    obtain ⟨w₁, w', hcalls, hfinish, hp⟩ := hpass
    cases hrun.symm.trans hp
    exact ⟨v, w₁, hfill, hcalls, hfinish⟩
  · obtain ⟨q, hq, -⟩ := hpass
    cases congrArg Prod.fst (hrun.symm.trans hq)

/-- A session that fails in a fresh writer fails where a value may stand. -/
theorem takesValue_of_write {e : ExportError} (h : s.write ctx root opts w = (.error e, s', w')) :
    (scopes w').TakesValue := by
  rcases write_cases ctx root opts s w with ⟨e', hrefused⟩ | ⟨-, result, p, hrun, hwrite⟩
  · cases h.symm.trans hrefused
    rw [hfresh]
    exact ⟨_, _, rfl⟩
  have hpass := runPass_outcome hw hfresh ctx root opts s.identities
  cases h.symm.trans hwrite
  split at hpass
  · obtain ⟨w₁, w', -, -, hp⟩ := hpass
    cases congrArg Prod.fst (hrun.symm.trans hp)
  · obtain ⟨q, hq, hplace⟩ := hpass
    cases hrun.symm.trans hq
    exact hplace

end Fresh

/-- The document that a recorder has of a session that succeeds. -/
theorem document?_of_write {ctx : Context} {root : DeclId} {opts : Options} {s s' : Session}
    {r : Recorder} (h : s.write ctx root opts ({} : Recorder) = (.ok (), s', r)) : ∃ v : Value,
      (Site.tree ctx opts ctx.nestingBound (.decl (some root))).fill ctx opts ⟨{}, s.identities⟩
        = .ok (v, ⟨s'.cursor, s'.identities⟩)
      ∧ r.document? = some v := by
  obtain ⟨v, r₁, hfill, hcalls, hfinish⟩ :=
    performs_of_write (w := ({} : Recorder)) trivial rfl h
  exact ⟨v, hfill, Recorder.document?_of_performs hcalls hfinish⟩

/-- The outline of the document of a session that succeeds is that of its translation unit, with the
pointers and file names that the session ends with. -/
theorem filled_of_write {ctx : Context} {root : DeclId} {opts : Options} {s s' : Session}
    {r : Recorder} (h : s.write ctx root opts ({} : Recorder) = (.ok (), s', r)) : ∃ v : Value,
      r.document? = some v
      ∧ (Site.tree ctx opts ctx.nestingBound (.decl (some root))).fill ctx opts ⟨{}, s.identities⟩
        = .ok (v, ⟨s'.cursor, s'.identities⟩)
      ∧ Filled ctx opts.paths (s'.identities.text opts.identityMode)
        (Site.outline ctx opts ctx.nestingBound (.decl (some root))) {} (v.outline none) s'.cursor := by
  obtain ⟨v, hfill, hv⟩ := document?_of_write h
  have hplaced : Tree.Placed (Site.outline ctx opts ctx.nestingBound (.decl (some root))) :=
    (Settled.outline opts ctx.nestingBound (.decl (some root))).1
  exact ⟨v, hv, hfill,
    Tree.filled_of_fill hplaced hfill (.refl _) (Tree.mirrors_none _)⟩

end Session

end SyntaxExport
