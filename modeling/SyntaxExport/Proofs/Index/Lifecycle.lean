import Mathlib.Data.List.Induction
import SyntaxExport.Proofs.Index

/-!
# The life of an index

An index is a set of tables that is filled in place. A build makes its checks before it enters
anything, so a build that is refused changes nothing, and one that is not refused finds the tables
empty. What an index has after any series of builds and resets is therefore what the last build that
succeeded has entered, alone, or nothing if the index was reset since (`Index.holds_last_build`).
-/

namespace SyntaxExport

namespace Index

/-! ### Calls -/

/-- A program on the tables of an index. A walk that breaks off leaves what it has entered. -/
abbrev InPlaceCall := EStateM WalkError Index

/-- Visits a node and what is defined inside it, and enters each node as it comes by it. -/
def enterFrom (ctx : Context) : Nat → Visit → InPlaceCall Unit
  | 0, _ => throw .cyclic
  | fuel + 1, v => do
    match ctx.inside? v, v with
    | none, _ => throw (.missing v)
    | some _, .comment _ => pure ()
    | some inner, _ =>
      modify (·.enter v)
      inner.forM (enterFrom ctx fuel)

/-- Fills the tables from the translation unit under `root`, or refuses to. -/
def buildInPlace (ctx : Context) (root : DeclId) : InPlaceCall (Except IndexError Unit) := do
  let x ← get
  if !x.isEmpty then return .error (.notReset x.size)
  if !isRoot ctx root then return .error .invalidRoot
  enterFrom ctx ctx.nestingBound (.decl root)
  return .ok ()

/-- Clears the tables one after the other. -/
def resetInPlace : InPlaceCall Unit := do
  modify fun x => { x with decls := {} }
  modify fun x => { x with stmts := {} }
  modify fun x => { x with types := {} }

/-- What is done with an index. -/
inductive Call where
  | build (ctx : Context) (root : DeclId)
  | reset

/-- One call, whatever it comes to. -/
def Call.perform : Call → InPlaceCall Unit
  | .build ctx root => do
    let _ ← buildInPlace ctx root
    return
  | .reset => resetInPlace

/-- Calls one after the other. -/
def performAll (calls : List Call) : InPlaceCall Unit :=
  calls.forM Call.perform

/-! ### Walks that enter -/

/-- The call enters what the walk visits, and breaks off where the walk does. -/
def Enters (walk : List Visit → Except WalkError (List Visit)) (call : InPlaceCall Unit) : Prop :=
  (∃ visits : List Visit, ∀ seen x, walk seen = .ok (visits.reverse ++ seen) ∧
    call.run x = .ok () (visits.foldl enter x)) ∨
  ∃ e, ∀ seen x, walk seen = .error e ∧ ∃ y, call.run x = .error e y

section Walks

variable {walk walk' : List Visit → Except WalkError (List Visit)} {call call' : InPlaceCall Unit}

theorem enters_pure : Enters pure (pure ()) :=
  .inl ⟨[], fun _ _ => ⟨rfl, rfl⟩⟩

theorem enters_throw (e : WalkError) : Enters (fun _ => .error e) (throw e) :=
  .inr ⟨e, fun _ x => ⟨rfl, x, rfl⟩⟩

theorem enters_modify (v : Visit) : Enters (fun seen => .ok (v :: seen)) (modify (·.enter v)) :=
  .inl ⟨[v], fun _ _ => ⟨rfl, rfl⟩⟩

theorem Enters.bind (h : Enters walk call) (h' : Enters walk' call') :
    Enters (fun seen => walk seen >>= walk') (call >>= fun _ => call') := by
  rcases h with ⟨visits, h⟩ | ⟨e, h⟩
  · rcases h' with ⟨visits', h'⟩ | ⟨e, h'⟩
    · refine .inl ⟨visits ++ visits', fun seen x => ?_⟩
      obtain ⟨hwalk', hcall'⟩ := h' (visits.reverse ++ seen) (visits.foldl enter x)
      simp only [EStateM.run_bind, (h seen x).1, (h seen x).2, List.reverse_append,
        List.append_assoc, List.foldl_append]
      exact ⟨hwalk', hcall'⟩
    · refine .inr ⟨e, fun seen x => ?_⟩
      obtain ⟨hwalk', hcall'⟩ := h' (visits.reverse ++ seen) (visits.foldl enter x)
      simp only [EStateM.run_bind, (h seen x).1, (h seen x).2]
      exact ⟨hwalk', hcall'⟩
  · refine .inr ⟨e, fun seen x => ?_⟩
    obtain ⟨hwalk, y, hcall⟩ := h seen x
    simp only [EStateM.run_bind, hwalk, hcall]
    exact ⟨rfl, y, rfl⟩

theorem enters_foldlM {f : List Visit → Visit → Except WalkError (List Visit)}
    {g : Visit → InPlaceCall Unit} (h : ∀ v, Enters (f · v) (g v)) :
    ∀ vs : List Visit, Enters (vs.foldlM f) (vs.forM g)
  | [] => enters_pure
  | v :: vs => (h v).bind (enters_foldlM h vs)

/-- A walk that enters what it comes by visits what a walk visits. -/
theorem enters_visitFrom (ctx : Context) : ∀ (fuel : Nat) (v : Visit),
    Enters (ctx.visitFrom false fuel · v) (enterFrom ctx fuel v)
  | 0, _ => enters_throw .cyclic
  | fuel + 1, v => by
    have hinner := enters_foldlM (enters_visitFrom ctx fuel)
    cases h : ctx.inside? v with
    | none =>
      simp only [Context.visitFrom, enterFrom, h]
      exact enters_throw _
    | some inner =>
      cases v with
      | comment id =>
        -- a comment is visited, but there is no table for it
        simp only [Context.visitFrom, enterFrom, h]
        exact enters_modify (.comment id)
      | decl id | stmt id | type id =>
        simp only [Context.visitFrom, enterFrom, h]
        exact (enters_modify _).bind (hinner inner)

end Walks

/-! ### Builds -/

section Builds

variable {ctx : Context} {root : DeclId} {x y : Index}

/-- The checks of a build come before it changes anything. -/
theorem run_buildInPlace_eq (ctx : Context) (root : DeclId) (x : Index) :
    (buildInPlace ctx root).run x =
      if !x.isEmpty then .ok (.error (.notReset x.size)) x
      else if !isRoot ctx root then .ok (.error .invalidRoot) x
      else match (enterFrom ctx ctx.nestingBound (.decl root)).run x with
        | .ok _ y => .ok (.ok ()) y
        | .error e y => .error e y := by
  have hget : (get : InPlaceCall Index).run x = .ok x x := rfl
  by_cases hempty : x.isEmpty = true
  · by_cases hroot : isRoot ctx root = true
    · simp only [buildInPlace, EStateM.run_bind, hget, hempty, hroot, Bool.not_true,
        Bool.false_eq_true, if_false]
      cases (enterFrom ctx ctx.nestingBound (.decl root)).run x <;> rfl
    · simp only [buildInPlace, EStateM.run_bind, hget, hempty, hroot]
      rfl
  · simp only [buildInPlace, EStateM.run_bind, hget, hempty]
    rfl

/-- A build in place leaves the tables that a build gives. If it is refused, it leaves the tables that
it found. -/
theorem run_buildInPlace (ctx : Context) (root : DeclId) (x : Index) :
    match build ctx root x with
    | .ok y => (buildInPlace ctx root).run x = .ok (.ok ()) y
    | .error (.walk e) => ∃ y, (buildInPlace ctx root).run x = .error e y
    | .error e => (buildInPlace ctx root).run x = .ok (.error e) x := by
  rw [run_buildInPlace_eq, build]
  by_cases hempty : x.isEmpty = true
  · by_cases hroot : isRoot ctx root = true
    · rcases enters_visitFrom ctx ctx.nestingBound (.decl root) with ⟨visits, h⟩ | ⟨e, h⟩
      · obtain ⟨hwalk, hcall⟩ := h [] x
        have hvisits : ctx.walkOutsideComments root = .ok visits := by
          simp only [Context.walkOutsideComments, hwalk, List.append_nil]
          exact congrArg Except.ok visits.reverse_reverse
        simp [hempty, hroot, hvisits, hcall]
      · obtain ⟨hwalk, y, hcall⟩ := h [] x
        have herror : ctx.walkOutsideComments root = .error e := by
          simp only [Context.walkOutsideComments, hwalk]
          rfl
        simp [hempty, hroot, herror, hcall]
    · simp [hempty, hroot]
  · simp [hempty]

theorem notReset_of_isEmpty (h : x.isEmpty = false) :
    (buildInPlace ctx root).run x = .ok (.error (.notReset x.size)) x := by
  have hrun := run_buildInPlace ctx root x
  rwa [build, if_pos (by simp [h])] at hrun

theorem invalidRoot_of_isRoot (h : x.isEmpty = true) (hroot : isRoot ctx root = false) :
    (buildInPlace ctx root).run x = .ok (.error .invalidRoot) x := by
  have hrun := run_buildInPlace ctx root x
  rwa [build, if_neg (by simp [h]), if_pos (by simp [hroot])] at hrun

theorem buildInPlace_iff :
    (buildInPlace ctx root).run x = .ok (.ok ()) y ↔ build ctx root x = .ok y := by
  have hrun := run_buildInPlace ctx root x
  constructor
  · intro h
    split at hrun
    · next z hz =>
      rw [h] at hrun
      cases hrun
      exact hz
    · obtain ⟨z, hz⟩ := hrun
      cases h.symm.trans hz
    · cases h.symm.trans hrun
  · intro h
    rwa [h] at hrun

/-- A walk breaks off in a build only where its checks have passed. -/
theorem of_build_walk {e : WalkError} (h : build ctx root x = .error (.walk e)) :
    x.isEmpty = true ∧ isRoot ctx root = true ∧ ctx.walkOutsideComments root = .error e := by
  rw [build] at h
  split at h
  · cases h
  next hempty =>
  split at h
  · cases h
  next hroot =>
  split at h
  · next e' hwalk =>
    cases h
    exact ⟨by simpa using hempty, by simpa using hroot, hwalk⟩
  · cases h

/-- A build that succeeds finds an empty index and leaves one with entries, its root at least. -/
theorem isEmpty_of_build (h : build ctx root x = .ok y) : x.isEmpty = true ∧ y.isEmpty = false := by
  constructor
  · by_contra hempty
    rw [build, if_pos (by simp [hempty])] at h
    cases h
  · have hdecls := (tabulates_of_build h).1
    have hroot : 0 < y.decls.size := by
      rw [hdecls.size, Set.ncard_pos hdecls.finite]
      exact ⟨root, .refl⟩
    have hsize : y.size ≠ 0 := by
      rw [size]
      omega
    simpa [isEmpty] using hsize

end Builds

/-! ### Series of calls -/

theorem performAll_concat (calls : List Call) (call : Call) :
    performAll (calls ++ [call]) = performAll calls >>= fun _ => call.perform := by
  simp [performAll]

/-- After the calls, a build succeeds. -/
def Succeeds (calls : List Call) (ctx : Context) (root : DeclId) : Prop :=
  ∃ x y, (performAll calls).run empty = .ok () x ∧ (buildInPlace ctx root).run x = .ok (.ok ()) y

/-- Of the calls, a build that succeeded, with no reset after it and no other build that succeeded. -/
def LastBuild (calls : List Call) (ctx : Context) (root : DeclId) : Prop :=
  ∃ before after, calls = before ++ .build ctx root :: after ∧ Succeeds before ctx root ∧
    .reset ∉ after ∧ ∀ mid ctx' root' rest, after = mid ++ .build ctx' root' :: rest →
      ¬Succeeds (before ++ .build ctx root :: mid) ctx' root'

/-- Where a build finds an empty index and a translation unit, its walk does not leave the arenas. -/
def StaysInside (calls : List Call) : Prop :=
  ∀ before ctx root after x, calls = before ++ .build ctx root :: after →
    (performAll before).run empty = .ok () x → x.isEmpty = true → isRoot ctx root = true →
    ∃ visits, ctx.walkOutsideComments root = .ok visits

theorem lastBuild_concat {calls : List Call} {call : Call} {ctx : Context} {root : DeclId} :
    LastBuild (calls ++ [call]) ctx root ↔
      (call = .build ctx root ∧ Succeeds calls ctx root) ∨
      (LastBuild calls ctx root ∧ call ≠ .reset ∧
        ∀ ctx' root', call = .build ctx' root' → ¬Succeeds calls ctx' root') := by
  constructor
  · rintro ⟨before, after, hcalls, hsucceeds, hreset, hlast⟩
    -- the last call is the build itself, or it comes after it
    rcases after.eq_nil_or_concat with rfl | ⟨init, last, rfl⟩
    · obtain ⟨rfl, hcall⟩ := List.append_inj' hcalls rfl
      exact .inl ⟨List.singleton_inj.mp hcall, hsucceeds⟩
    · rw [List.concat_eq_append, ← List.cons_append, ← List.append_assoc] at hcalls
      obtain ⟨rfl, hcall⟩ := List.append_inj' hcalls rfl
      obtain rfl : call = last := List.singleton_inj.mp hcall
      rw [List.concat_eq_append] at hreset hlast
      rw [List.mem_append, List.mem_singleton, not_or] at hreset
      refine .inr ⟨⟨before, init, rfl, hsucceeds, hreset.1, ?_⟩, fun h => hreset.2 h.symm, ?_⟩
      · rintro mid ctx' root' rest rfl
        exact hlast mid ctx' root' (rest ++ [call]) (by simp)
      · rintro ctx' root' rfl
        exact hlast init ctx' root' [] rfl
  · rintro (⟨rfl, hsucceeds⟩ | ⟨⟨before, after, rfl, hsucceeds, hreset, hlast⟩, hcall, hfails⟩)
    · exact ⟨calls, [], rfl, hsucceeds, List.not_mem_nil, by simp⟩
    · refine ⟨before, after ++ [call], by simp, hsucceeds, ?_, ?_⟩
      · rw [List.mem_append, List.mem_singleton, not_or]
        exact ⟨hreset, fun h => hcall h.symm⟩
      · intro mid ctx' root' rest hafter
        rcases rest.eq_nil_or_concat with rfl | ⟨init, last, rfl⟩
        · obtain ⟨rfl, hlastCall⟩ := List.append_inj' hafter rfl
          exact hfails ctx' root' (List.singleton_inj.mp hlastCall)
        · rw [List.concat_eq_append, ← List.cons_append, ← List.append_assoc] at hafter
          obtain ⟨rfl, -⟩ := List.append_inj' hafter rfl
          exact hlast mid ctx' root' init rfl

/-- A reset forgets every build. -/
theorem not_lastBuild_reset (calls : List Call) (ctx : Context) (root : DeclId) :
    ¬LastBuild (calls ++ [.reset]) ctx root := by
  intro hlast
  rcases lastBuild_concat.mp hlast with ⟨hcall, -⟩ | ⟨-, hreset, -⟩
  · cases hcall
  · exact hreset rfl

/-- A build that succeeds is the last one. -/
theorem lastBuild_of_succeeds {calls : List Call} {ctx : Context} {root : DeclId}
    (h : Succeeds calls ctx root) (ctx' : Context) (root' : DeclId) :
    LastBuild (calls ++ [.build ctx root]) ctx' root' ↔
      Call.build ctx root = .build ctx' root' := by
  constructor
  · intro hlast
    rcases lastBuild_concat.mp hlast with ⟨hcall, -⟩ | ⟨-, -, hfails⟩
    · exact hcall
    · exact absurd h (hfails ctx root rfl)
  · intro hcall
    cases hcall
    exact lastBuild_concat.mpr (.inl ⟨rfl, h⟩)

/-- After a build that fails, the last one is still the last one. -/
theorem lastBuild_of_fails {calls : List Call} {ctx : Context} {root : DeclId}
    (h : ¬Succeeds calls ctx root) (ctx' : Context) (root' : DeclId) :
    LastBuild (calls ++ [.build ctx root]) ctx' root' ↔ LastBuild calls ctx' root' := by
  constructor
  · intro hlast
    rcases lastBuild_concat.mp hlast with ⟨hcall, hsucceeds⟩ | ⟨hlast, -⟩
    · cases hcall
      exact absurd hsucceeds h
    · exact hlast
  · intro hlast
    refine lastBuild_concat.mpr (.inr ⟨hlast, fun hreset => ?_, fun ctx'' root'' hcall => ?_⟩)
    · cases hreset
    · cases hcall
      exact h

theorem StaysInside.dropLast {calls : List Call} {call : Call} (h : StaysInside (calls ++ [call])) :
    StaysInside calls := by
  rintro before ctx root after x rfl
  exact h before ctx root (after ++ [call]) x (by simp)

/-- The walks of a series stay inside if those of all its translation units do. -/
theorem staysInside_of_forall {calls : List Call} (h : ∀ ctx root, .build ctx root ∈ calls →
    isRoot ctx root = true → ∃ visits, ctx.walkOutsideComments root = .ok visits) :
    StaysInside calls := by
  rintro before ctx root after x rfl - - hroot
  exact h ctx root (by simp) hroot

/-- The index has what its last build has entered, and nothing if there is none. -/
def HoldsLast (calls : List Call) (x : Index) : Prop :=
  (x = empty ∧ ∀ ctx root, ¬LastBuild calls ctx root) ∨
  (x.isEmpty = false ∧ (∃ ctx root, LastBuild calls ctx root) ∧
    ∀ ctx root, LastBuild calls ctx root → ofUnit ctx root = .ok x)

theorem HoldsLast.eq_empty {calls : List Call} {x : Index} (h : HoldsLast calls x)
    (hempty : x.isEmpty = true) : x = empty := by
  rcases h with ⟨hx, -⟩ | ⟨hx, -⟩
  · exact hx
  · rw [hempty] at hx
    cases hx

theorem holdsLast_nil : HoldsLast [] empty := by
  refine .inl ⟨rfl, ?_⟩
  rintro ctx root ⟨before, after, hcalls, -⟩
  simp at hcalls

theorem succeeds_iff {calls : List Call} {x : Index} (hrun : (performAll calls).run empty = .ok () x)
    (ctx : Context) (root : DeclId) : Succeeds calls ctx root ↔ ∃ y, build ctx root x = .ok y := by
  constructor
  · rintro ⟨x', y, hx', hy⟩
    cases hrun.symm.trans hx'
    exact ⟨y, buildInPlace_iff.mp hy⟩
  · rintro ⟨y, hy⟩
    exact ⟨x, y, hrun, buildInPlace_iff.mpr hy⟩

theorem run_perform_build {ctx : Context} {root : DeclId} {x y : Index} {r : Except IndexError Unit}
    (h : (buildInPlace ctx root).run x = .ok r y) :
    (Call.build ctx root).perform.run x = .ok () y := by
  rw [Call.perform, EStateM.run_bind, h]
  rfl

/-- One more call. -/
theorem HoldsLast.perform {calls : List Call} {call : Call} {x : Index}
    (h : HoldsLast calls x) (hrun : (performAll calls).run empty = .ok () x)
    (hinside : StaysInside (calls ++ [call])) :
    ∃ y, call.perform.run x = .ok () y ∧ HoldsLast (calls ++ [call]) y := by
  cases call with
  | reset => exact ⟨empty, rfl, .inl ⟨rfl, not_lastBuild_reset calls⟩⟩
  | build ctx root =>
    have hstep := run_buildInPlace ctx root x
    split at hstep
    · -- the tables were empty, so they are those of a new index
      next y hy =>
      obtain ⟨hempty, hentries⟩ := isEmpty_of_build hy
      have hlast := lastBuild_of_succeeds ((succeeds_iff hrun ctx root).mpr ⟨y, hy⟩)
      refine ⟨y, run_perform_build hstep, .inr ⟨hentries, ⟨ctx, root, (hlast ctx root).mpr rfl⟩, ?_⟩⟩
      intro ctx' root' hlast'
      cases (hlast ctx' root').mp hlast'
      rw [ofUnit, ← h.eq_empty hempty, hy]
    · next e hwalk =>
      obtain ⟨hempty, hroot, herror⟩ := of_build_walk hwalk
      obtain ⟨visits, hvisits⟩ := hinside calls ctx root [] x rfl hrun hempty hroot
      cases herror.symm.trans hvisits
    · -- the build was refused, so the last one is the last one still
      next e _ hrefused =>
      have hfails : ¬Succeeds calls ctx root := by
        rw [succeeds_iff hrun]
        rintro ⟨y, hy⟩
        cases hrefused.symm.trans hy
      refine ⟨x, run_perform_build hstep, ?_⟩
      simpa only [HoldsLast, lastBuild_of_fails hfails] using h

/-- A whole series of calls. -/
theorem exists_holdsLast (calls : List Call) (h : StaysInside calls) :
    ∃ x, (performAll calls).run empty = .ok () x ∧ HoldsLast calls x := by
  induction calls using List.reverseRecOn with
  | nil => exact ⟨empty, rfl, holdsLast_nil⟩
  | append_singleton calls call ih =>
    obtain ⟨x, hrun, hx⟩ := ih h.dropLast
    obtain ⟨y, hperform, hy⟩ := hx.perform hrun h
    refine ⟨y, ?_, hy⟩
    rw [performAll_concat, EStateM.run_bind, hrun]
    exact hperform

/-- After any series of builds and resets whose walks stay in the arenas, an index has the tables that
its last build gives to a new index, and it is empty if it has no build that succeeded since the last
reset. A build is refused where the index has entries, and else where its root is not a translation
unit. In both cases it leaves all tables as they were. -/
theorem holds_last_build (calls : List Call) (h : StaysInside calls) :
    (∃ x, (performAll calls).run empty = .ok () x ∧
      (x = empty ∨ ∃ ctx root, LastBuild calls ctx root) ∧
      (∀ ctx root, LastBuild calls ctx root → ofUnit ctx root = .ok x) ∧
      (x.isEmpty = false ↔ ∃ ctx root, LastBuild calls ctx root)) ∧
    (∀ (x : Index) (ctx : Context) (root : DeclId), x.isEmpty = false →
      (buildInPlace ctx root).run x = .ok (.error (.notReset x.size)) x) ∧
    ∀ (x : Index) (ctx : Context) (root : DeclId), x.isEmpty = true →
      (∀ d, ctx.decl? root = some d → d.kind ≠ .translationUnit) →
      (buildInPlace ctx root).run x = .ok (.error .invalidRoot) x := by
  refine ⟨?_, fun x ctx root => notReset_of_isEmpty, fun x ctx root hempty hroot => ?_⟩
  · obtain ⟨x, hrun, hx⟩ := exists_holdsLast calls h
    refine ⟨x, hrun, ?_⟩
    rcases hx with ⟨rfl, hnone⟩ | ⟨hentries, hsome, hlast⟩
    · refine ⟨.inl rfl, fun ctx root hlast => absurd hlast (hnone ctx root), ?_⟩
      constructor
      · intro hentries
        cases hentries
      · rintro ⟨ctx, root, hlast⟩
        exact absurd hlast (hnone ctx root)
    · exact ⟨.inr hsome, hlast, fun _ => hsome, fun _ => hentries⟩
  · refine invalidRoot_of_isRoot hempty ?_
    rw [isRoot]
    cases hd : ctx.decl? root with
    | none => rfl
    | some d => exact beq_eq_false_iff_ne.mpr (hroot d hd)

open Session (functionUnit)

/-- Of two units with a reset between them, the index has the second one. A third one is refused. -/
theorem holds_last_build_functionUnit : ∃ x,
    (performAll [.build bareUnit ⟨0⟩, .reset, .build functionUnit ⟨0⟩]).run empty = .ok () x ∧
    ofUnit functionUnit ⟨0⟩ = .ok x ∧
    (buildInPlace bareUnit ⟨0⟩).run x = .ok (.error (.notReset x.size)) x ∧
    (buildInPlace bareUnit ⟨9⟩).run empty = .ok (.error .invalidRoot) empty := by
  have hinside : StaysInside [.build bareUnit ⟨0⟩, .reset, .build functionUnit ⟨0⟩] := by
    refine staysInside_of_forall fun ctx root hmem _ => ?_
    simp only [List.mem_cons, List.not_mem_nil, or_false, reduceCtorEq, false_or,
      Call.build.injEq] at hmem
    rcases hmem with ⟨rfl, rfl⟩ | ⟨rfl, rfl⟩
    · exact ⟨_, rfl⟩
    · exact ⟨_, rfl⟩
  have hreset : (performAll [.build bareUnit ⟨0⟩, .reset]).run empty = .ok () empty := rfl
  have hlastBuild :
      LastBuild [.build bareUnit ⟨0⟩, .reset, .build functionUnit ⟨0⟩] functionUnit ⟨0⟩ :=
    ⟨[.build bareUnit ⟨0⟩, .reset], [], rfl, (succeeds_iff hreset _ _).mpr exists_build_functionUnit,
      List.not_mem_nil, by simp⟩
  obtain ⟨⟨x, hrun, -, hlast, hentries⟩, hnotReset, hinvalidRoot⟩ := holds_last_build _ hinside
  have hfull : x.isEmpty = false := hentries.mpr ⟨_, _, hlastBuild⟩
  refine ⟨x, hrun, hlast _ _ hlastBuild, hnotReset x _ _ hfull, ?_⟩
  refine hinvalidRoot empty bareUnit ⟨9⟩ rfl fun d hd => ?_
  cases hd

end Index

end SyntaxExport
