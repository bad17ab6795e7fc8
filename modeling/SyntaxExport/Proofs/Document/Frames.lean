import SyntaxExport.Proofs.Document.Rejection

/-!
# Frames of reachable stacks

Whatever operations are tried on a fresh stack of scopes, in whatever order and with whatever success,
its frames keep account of them (`ScopeStack.Accounted`): no scope holds more than it declares, and
every scope but the innermost waits for the one inside it, which it has counted already. What was accepted
can be read off the frames (`ScopeStack.History`). So a value fits after a tag, and a document ends after
exactly one complete value (`ScopeStack.frames_account`).
-/

namespace SyntaxExport

/-! ### What operations do -/

namespace Frame

/-- A value may stand next: a tag waits for it, or there is room for another element. -/
def TakesValue (f : Frame) : Prop :=
  if f.kind = .object then f.tagged = true else f.emitted ≠ f.arity

/-- The frame after one more value. -/
def withValue (f : Frame) : Frame :=
  if f.kind = .object then { f with emitted := f.emitted + 1, tagged := false }
  else { f with emitted := f.emitted + 1 }

@[simp] theorem kind_withValue (f : Frame) : f.withValue.kind = f.kind := by
  grind [withValue]

@[simp] theorem arity_withValue (f : Frame) : f.withValue.arity = f.arity := by
  grind [withValue]

@[simp] theorem emitted_withValue (f : Frame) : f.withValue.emitted = f.emitted + 1 := by
  grind [withValue]

end Frame

namespace ScopeStack

open InPlace

variable {o : Operation} {s t : ScopeStack} {slot : Slot}

/-- The operations that are accepted, with the frames before and after them. -/
inductive Step : Operation → List Frame → List Frame → Prop where
  | tag {f : Frame} (outer : List Frame) : f.kind = .object → f.tagged = false → f.emitted ≠ f.arity →
    Step .tag (f :: outer) ({ f with tagged := true } :: outer)
  | value {f : Frame} (outer : List Frame) : f.TakesValue →
    Step .value (f :: outer) (f.withValue :: outer)
  | enter {f : Frame} (outer : List Frame) (kind : ScopeKind) (arity : Nat) : f.TakesValue →
    Step (.enter kind arity) (f :: outer) ({ kind := kind, arity := arity } :: f.withValue :: outer)
  | close {f : Frame} (g : Frame) (outer : List Frame) : f.tagged = false → f.emitted = f.arity →
    Step .close (f :: g :: outer) (g :: outer)
  | finish {f : Frame} : f.emitted ≠ 0 → Step .finish [f] []

theorem value_eq {f : Frame} (h : f.TakesValue) (outer : List Frame) :
    (⟨f :: outer⟩ : ScopeStack).value = .ok (⟨f.kind, f.emitted⟩, ⟨f.withValue :: outer⟩) := by
  rw [value, Frame.withValue]
  by_cases hkind : f.kind = .object
  · rw [Frame.TakesValue, if_pos hkind] at h
    simp [hkind, h]
  · rw [Frame.TakesValue, if_neg hkind] at h
    simp [hkind, h]

theorem exists_of_value (h : s.value = .ok (slot, t)) : ∃ f outer, s = ⟨f :: outer⟩ ∧ f.TakesValue ∧
    slot = ⟨f.kind, f.emitted⟩ ∧ t = ⟨f.withValue :: outer⟩ := by
  obtain ⟨_ | ⟨f, outer⟩⟩ := s
  · cases h
  · have hf : f.TakesValue := by
      grind [value, Frame.TakesValue]
    rw [value_eq hf] at h
    cases h
    exact ⟨f, outer, rfl, hf, rfl, rfl⟩

theorem exists_of_tag {i : Nat} (h : s.tag = .ok (i, t)) : ∃ f outer, s = ⟨f :: outer⟩ ∧
    f.kind = .object ∧ f.tagged = false ∧ f.emitted ≠ f.arity ∧ i = f.emitted ∧
    t = ⟨{ f with tagged := true } :: outer⟩ := by
  obtain ⟨_ | ⟨f, outer⟩⟩ := s
  · cases h
  · rw [tag] at h
    dsimp only at h
    split_ifs at h with hkind htagged hfull
    cases h
    exact ⟨f, outer, rfl, Decidable.not_not.mp hkind, Bool.eq_false_iff.mpr htagged, hfull, rfl, rfl⟩

/-- What an operation does where it is accepted. -/
theorem step_of_apply (h : o.apply s = .ok t) : Step o s.frames t.frames := by
  cases o with
  | tag =>
    obtain ⟨i, h⟩ := Recorder.exists_of_map_snd h
    obtain ⟨f, outer, rfl, hkind, htagged, hfull, -, rfl⟩ := exists_of_tag h
    exact .tag outer hkind htagged hfull
  | value =>
    obtain ⟨slot, h⟩ := Recorder.exists_of_map_snd h
    obtain ⟨f, outer, rfl, hf, -, rfl⟩ := exists_of_value h
    exact .value outer hf
  | enter kind arity =>
    obtain ⟨slot, h⟩ := Recorder.exists_of_map_snd h
    rw [enter] at h
    split at h
    · cases h
    · next hvalue =>
      obtain ⟨f, outer, rfl, hf, -, rfl⟩ := exists_of_value hvalue
      cases h
      exact .enter outer kind arity hf
  | close =>
    obtain ⟨f, h⟩ := Recorder.exists_of_map_snd h
    obtain ⟨_ | ⟨f, _ | ⟨g, outer⟩⟩⟩ := s
    · cases h
    · cases h
    · rw [close] at h
      dsimp only at h
      split_ifs at h with hincomplete
      obtain ⟨htagged, hfull⟩ := not_or.mp hincomplete
      cases h
      exact .close g outer (Bool.eq_false_iff.mpr htagged) (Decidable.not_not.mp hfull)
  | finish =>
    change s.finish = .ok t at h
    obtain ⟨_ | ⟨f, _ | ⟨g, outer⟩⟩⟩ := s
    · cases h
    · rw [finish] at h
      dsimp only at h
      split_ifs at h with hempty
      cases h
      exact .finish hempty
    · cases h

/-- Every operation on a finished stack is refused. -/
theorem each_finished (later : List Operation) : each Operation.inPlace later ⟨[]⟩
    = (List.replicate later.length (.error .finished), ⟨[]⟩) := by
  induction later with
  | nil => rfl
  | cons o later ih =>
    have ho : o.inPlace.exec ⟨[]⟩ = (.error .finished, ⟨[]⟩) := by
      rw [Operation.exec_inPlace]
      cases o <;> rfl
    rw [each, ho, ih]
    rfl

/-! ### The account that frames keep -/

/-- The frames of a document that is not finished, whose scopes declare no more than `bound` elements. -/
structure Accounted (bound : Nat) (frames : List Frame) : Prop where
  bottom : ∃ f, frames.getLast? = some f ∧ f.kind = .document ∧ f.arity = 1
  fits : ∀ f ∈ frames, f.emitted ≤ f.arity ∧ f.arity ≤ bound
  tagged : ∀ f ∈ frames, f.tagged = true → f.kind = .object ∧ f.emitted < f.arity
  /-- A scope that another one is open in has counted it, and its tag is gone. -/
  waiting : ∀ f ∈ frames.tail, f.tagged = false ∧ 1 ≤ f.emitted

namespace Accounted

variable {bound : Nat} {f g : Frame} {outer : List Frame}

theorem fresh (hbound : 1 ≤ bound) : Accounted bound ({} : ScopeStack).frames where
  bottom := ⟨_, rfl, rfl, rfl⟩
  fits := List.forall_mem_singleton.mpr ⟨Nat.zero_le 1, hbound⟩
  tagged := List.forall_mem_singleton.mpr nofun
  waiting := nofun

theorem lt_arity (h : Accounted bound (f :: outer)) (hf : f.TakesValue) : f.emitted < f.arity := by
  have hfits := (h.fits f List.mem_cons_self).1
  by_cases hkind : f.kind = .object
  · rw [Frame.TakesValue, if_pos hkind] at hf
    exact (h.tagged f List.mem_cons_self hf).2
  · rw [Frame.TakesValue, if_neg hkind] at hf
    omega

theorem tagged_withValue (h : Accounted bound (f :: outer)) : f.withValue.tagged = false := by
  have htagged := h.tagged f List.mem_cons_self
  grind [Frame.withValue]

/-- The innermost frame may change as long as it declares what it did. -/
theorem change (h : Accounted bound (f :: outer)) (hkind : g.kind = f.kind) (harity : g.arity = f.arity)
    (hfits : g.emitted ≤ g.arity) (htagged : g.tagged = true → g.kind = .object ∧ g.emitted < g.arity) :
    Accounted bound (g :: outer) where
  bottom := by
    obtain ⟨b, hb, hdocument, hone⟩ := h.bottom
    cases outer with
    | nil =>
      cases hb
      exact ⟨g, rfl, hkind.trans hdocument, harity.trans hone⟩
    | cons e outer => exact ⟨b, hb, hdocument, hone⟩
  fits := by
    obtain ⟨hf, houter⟩ := List.forall_mem_cons.mp h.fits
    exact List.forall_mem_cons.mpr ⟨⟨hfits, harity ▸ hf.2⟩, houter⟩
  tagged := by
    obtain ⟨-, houter⟩ := List.forall_mem_cons.mp h.tagged
    exact List.forall_mem_cons.mpr ⟨htagged, houter⟩
  waiting := h.waiting

theorem withValue (h : Accounted bound (f :: outer)) (hf : f.TakesValue) :
    Accounted bound (f.withValue :: outer) := by
  have hroom := h.lt_arity hf
  refine h.change f.kind_withValue f.arity_withValue ?_ fun htagged => ?_
  · rw [Frame.emitted_withValue, Frame.arity_withValue]
    omega
  · rw [h.tagged_withValue] at htagged
    cases htagged

theorem push (h : Accounted bound (f :: outer)) (htagged : f.tagged = false) (hemitted : 1 ≤ f.emitted)
    (kind : ScopeKind) {arity : Nat} (harity : arity ≤ bound) :
    Accounted bound ({ kind := kind, arity := arity } :: f :: outer) where
  bottom := h.bottom
  fits := List.forall_mem_cons.mpr ⟨⟨Nat.zero_le arity, harity⟩, h.fits⟩
  tagged := List.forall_mem_cons.mpr ⟨nofun, h.tagged⟩
  waiting := List.forall_mem_cons.mpr ⟨⟨htagged, hemitted⟩, h.waiting⟩

theorem pop (h : Accounted bound (f :: g :: outer)) : Accounted bound (g :: outer) where
  bottom := h.bottom
  fits := (List.forall_mem_cons.mp h.fits).2
  tagged := (List.forall_mem_cons.mp h.tagged).2
  waiting := (List.forall_mem_cons.mp h.waiting).2

/-- An accepted operation keeps the account, or it finishes the document. -/
theorem step {frames frames' : List Frame} (h : Accounted bound frames) (hstep : Step o frames frames')
    (hbound : ∀ kind arity, o = .enter kind arity → arity ≤ bound) :
    frames' = [] ∨ Accounted bound frames' := by
  cases hstep with
  | @tag f outer hkind htagged hfull =>
    have hfits := (h.fits f List.mem_cons_self).1
    exact .inr (h.change rfl rfl hfits fun _ => ⟨hkind, Nat.lt_of_le_of_ne hfits hfull⟩)
  | value outer hf => exact .inr (h.withValue hf)
  | @enter f outer kind arity hf =>
    have hemitted : 1 ≤ f.withValue.emitted := by
      rw [Frame.emitted_withValue]
      omega
    exact .inr ((h.withValue hf).push h.tagged_withValue hemitted kind (hbound kind arity rfl))
  | close g outer htagged hfull => exact .inr h.pop
  | finish hf => exact .inl rfl

end Accounted

/-! ### Complete values -/

/-- The tag that a value needs in a scope. -/
def tagIn (kind : ScopeKind) : List Operation :=
  if kind = .object then [.tag] else []

/-- The operations that write a number of elements into a scope: values, in an object with a tag each. -/
inductive Writes : ScopeKind → Nat → List Operation → Prop where
  | none (kind : ScopeKind) : Writes kind 0 []
  | scalar {kind : ScopeKind} {n : Nat} {ops : List Operation} : Writes kind n ops →
    Writes kind (n + 1) (ops ++ (tagIn kind ++ [.value]))
  | scope {kind inner : ScopeKind} {n arity : Nat} {ops body : List Operation} : Writes kind n ops →
    Writes inner arity body →
    Writes kind (n + 1) (ops ++ (tagIn kind ++ .enter inner arity :: (body ++ [.close])))

/-- The operations that write one value: a scalar, or a scope with the number of elements that it
declares. -/
inductive Complete : List Operation → Prop where
  | scalar : Complete [.value]
  | scope {kind : ScopeKind} {arity : Nat} {body : List Operation} : Writes kind arity body →
    Complete (.enter kind arity :: (body ++ [.close]))

theorem Writes.element {kind : ScopeKind} {n : Nat} {ops v : List Operation} (h : Writes kind n ops)
    (hv : Complete v) : Writes kind (n + 1) (ops ++ (tagIn kind ++ v)) := by
  cases hv with
  | scalar => exact .scalar h
  | scope hbody => exact .scope h hbody

theorem Writes.eq_nil {kind : ScopeKind} {ops : List Operation} (h : Writes kind 0 ops) : ops = [] := by
  cases h
  rfl

/-- A document holds one value. -/
theorem Writes.complete {ops : List Operation} (h : Writes .document 1 ops) : Complete ops := by
  cases h with
  | scalar h =>
    cases h.eq_nil
    exact .scalar
  | scope h hbody =>
    cases h.eq_nil
    exact .scope hbody

/-- The stack after operations that are all accepted. -/
def applyAll (s : ScopeStack) (ops : List Operation) : Except WriteError ScopeStack :=
  ops.foldlM Operation.apply s

theorem applyAll_append {as bs : List Operation} (h : s.applyAll as = .ok t) :
    s.applyAll (as ++ bs) = t.applyAll bs := by
  rw [applyAll, List.foldlM_append, ← applyAll, h]
  rfl

theorem applyAll_singleton (s : ScopeStack) (o : Operation) : s.applyAll [o] = o.apply s := by
  rw [applyAll, List.foldlM_cons]
  cases o.apply s <;> rfl

/-- The operations that a stack accepts as one value. -/
def AcceptedAsValue (v : List Operation) : Prop :=
  ∀ (f : Frame) (outer : List Frame), f.TakesValue →
    (⟨f :: outer⟩ : ScopeStack).applyAll v = .ok ⟨f.withValue :: outer⟩

theorem acceptedAsValue_scalar : AcceptedAsValue [.value] := by
  intro f outer hf
  rw [applyAll_singleton, Operation.apply, value_eq hf]
  rfl

theorem acceptedAsValue_scope {kind : ScopeKind} {arity : Nat} {body : List Operation}
    (hbody : ∀ outer : List Frame,
      (⟨{ kind := kind, arity := arity } :: outer⟩ : ScopeStack).applyAll body
        = .ok ⟨{ kind := kind, arity := arity, emitted := arity } :: outer⟩) :
    AcceptedAsValue (.enter kind arity :: (body ++ [.close])) := by
  intro f outer hf
  have henter : (⟨f :: outer⟩ : ScopeStack).applyAll [.enter kind arity]
      = .ok ⟨{ kind := kind, arity := arity } :: f.withValue :: outer⟩ := by
    rw [applyAll_singleton, Operation.apply, enter, value_eq hf]
    rfl
  change (⟨f :: outer⟩ : ScopeStack).applyAll ([.enter kind arity] ++ (body ++ [.close])) = _
  rw [applyAll_append henter, applyAll_append (hbody _), applyAll_singleton, Operation.apply, close]
  simp [Functor.map, Except.map]

/-- A scope with room takes a value after the tag that it needs. -/
theorem applyAll_element {v : List Operation} (hv : AcceptedAsValue v) {f : Frame}
    (htagged : f.tagged = false) (hroom : f.emitted < f.arity) (outer : List Frame) :
    (⟨f :: outer⟩ : ScopeStack).applyAll (tagIn f.kind ++ v)
      = .ok ⟨{ f with emitted := f.emitted + 1 } :: outer⟩ := by
  have hne : f.emitted ≠ f.arity := Nat.ne_of_lt hroom
  by_cases hkind : f.kind = .object
  · have htag : (⟨f :: outer⟩ : ScopeStack).applyAll [.tag]
        = .ok ⟨{ f with tagged := true } :: outer⟩ := by
      rw [applyAll_singleton, Operation.apply, tag]
      simp [hkind, htagged, hne, Functor.map, Except.map]
    have htakes : ({ f with tagged := true } : Frame).TakesValue := by
      rw [Frame.TakesValue, if_pos hkind]
    rw [tagIn, if_pos hkind, applyAll_append htag, hv _ outer htakes, Frame.withValue, if_pos hkind,
      ← htagged]
  · rw [tagIn, if_neg hkind, List.nil_append, hv f outer (by rwa [Frame.TakesValue, if_neg hkind]),
      Frame.withValue, if_neg hkind]

/-- A scope with room for a number of elements takes the operations that write them. -/
theorem Writes.applyAll {kind : ScopeKind} {n : Nat} {ops : List Operation} (h : Writes kind n ops) :
    ∀ (f : Frame) (outer : List Frame), f.kind = kind → f.tagged = false → f.emitted + n ≤ f.arity →
      (⟨f :: outer⟩ : ScopeStack).applyAll ops
        = .ok ⟨{ f with emitted := f.emitted + n } :: outer⟩ := by
  induction h with
  | none kind => exact fun f outer _ _ _ => rfl
  | @scalar kind n ops h ih =>
    intro f outer hkind htagged hroom
    rw [applyAll_append (ih f outer hkind htagged (by omega)), ← hkind]
    exact applyAll_element (f := { f with emitted := f.emitted + n }) acceptedAsValue_scalar htagged
      hroom outer
  | @scope kind inner n arity ops body h hbody ih ihbody =>
    intro f outer hkind htagged hroom
    rw [applyAll_append (ih f outer hkind htagged (by omega)), ← hkind]
    refine applyAll_element (f := { f with emitted := f.emitted + n })
      (acceptedAsValue_scope fun outer => ?_) htagged hroom outer
    rw [ihbody { kind := inner, arity := arity } outer rfl rfl (by simp), Nat.zero_add]

theorem Complete.acceptedAsValue {v : List Operation} (h : Complete v) : AcceptedAsValue v := by
  cases h with
  | scalar => exact acceptedAsValue_scalar
  | @scope kind arity body hbody =>
    refine acceptedAsValue_scope fun outer => ?_
    rw [hbody.applyAll { kind := kind, arity := arity } outer rfl rfl (by simp), Nat.zero_add]

/-! ### Histories -/

/-- What was written into a scope that is still open. -/
def Holds (f : Frame) (ops : List Operation) : Prop :=
  ∃ written, Writes f.kind f.emitted written ∧ ops = written ++ if f.tagged then tagIn f.kind else []

/-- The operations that were accepted on the way to frames. -/
inductive History : List Frame → List Operation → Prop where
  | finished {v : List Operation} : Complete v → History [] (v ++ [.finish])
  | document {f : Frame} {ops : List Operation} : f.kind = .document → Holds f ops → History [f] ops
  | scope {f g : Frame} {outer : List Frame} {before ops : List Operation} : History (g :: outer) before →
    g.TakesValue → Holds f ops →
    History (f :: g.withValue :: outer) (before ++ .enter f.kind f.arity :: ops)

theorem holds_nil (kind : ScopeKind) (arity : Nat) : Holds { kind := kind, arity := arity } [] :=
  ⟨[], .none kind, rfl⟩

/-- One more complete value in a scope that takes it. -/
theorem Holds.element {f : Frame} {ops v : List Operation} (h : Holds f ops) (hf : f.TakesValue)
    (hv : Complete v) : Holds f.withValue (ops ++ v) := by
  obtain ⟨written, hwritten, rfl⟩ := h
  have htag : (if f.tagged then tagIn f.kind else []) = tagIn f.kind := by
    grind [Frame.TakesValue, tagIn]
  have hnone : (if f.withValue.tagged then tagIn f.withValue.kind else []) = [] := by
    grind [Frame.withValue, tagIn]
  refine ⟨written ++ (tagIn f.kind ++ v), ?_, ?_⟩
  · rw [Frame.kind_withValue, Frame.emitted_withValue]
    exact hwritten.element hv
  · rw [htag, hnone, List.append_nil, List.append_assoc]

theorem Holds.tag {f : Frame} {ops : List Operation} (h : Holds f ops) (hkind : f.kind = .object)
    (htagged : f.tagged = false) : Holds { f with tagged := true } (ops ++ [.tag]) := by
  obtain ⟨written, hwritten, rfl⟩ := h
  refine ⟨written, hwritten, ?_⟩
  simp [htagged, tagIn, hkind]

theorem Holds.writes {f : Frame} {ops : List Operation} (h : Holds f ops) (htagged : f.tagged = false) :
    Writes f.kind f.emitted ops := by
  obtain ⟨written, hwritten, rfl⟩ := h
  rw [htagged, if_neg Bool.false_ne_true, List.append_nil]
  exact hwritten

theorem History.element {f : Frame} {outer : List Frame} {ops v : List Operation}
    (h : History (f :: outer) ops) (hf : f.TakesValue) (hv : Complete v) :
    History (f.withValue :: outer) (ops ++ v) := by
  cases h with
  | document hkind hholds => exact .document (f.kind_withValue.trans hkind) (hholds.element hf hv)
  | scope hbefore hg hholds =>
    have hscope := History.scope hbefore hg (hholds.element hf hv)
    rw [Frame.kind_withValue, Frame.arity_withValue] at hscope
    rw [List.append_assoc]
    exact hscope

/-- An accepted operation is the next one of the history. -/
theorem History.step {bound : Nat} {frames frames' : List Frame} {ops : List Operation}
    (h : History frames ops) (hframes : Accounted bound frames) (hstep : Step o frames frames') :
    History frames' (ops ++ [o]) := by
  cases hstep with
  | tag outer hkind htagged hfull =>
    cases h with
    | document hdocument hholds => cases hkind.symm.trans hdocument
    | scope hbefore hg hholds =>
      rw [List.append_assoc]
      exact .scope hbefore hg (hholds.tag hkind htagged)
  | value outer hf => exact h.element hf .scalar
  | enter outer kind arity hf => exact .scope h hf (holds_nil kind arity)
  | close g outer htagged hfull =>
    cases h with
    | scope hbefore hg hholds =>
      have hbody := hholds.writes htagged
      rw [hfull] at hbody
      rw [List.append_assoc]
      exact hbefore.element hg (.scope hbody)
  | @finish f hf =>
    cases h with
    | document hdocument hholds =>
      obtain ⟨b, hb, -, hone⟩ := hframes.bottom
      obtain rfl : f = b := Option.some.inj hb
      obtain ⟨hfits, -⟩ := hframes.fits f List.mem_cons_self
      have hemitted : f.emitted = 1 := by omega
      have htagged : f.tagged = false := by
        have h := hframes.tagged f List.mem_cons_self
        grind
      have hwrites := hholds.writes htagged
      rw [hdocument, hemitted] at hwrites
      exact .finished hwrites.complete

/-- A finished document was one complete value. -/
theorem History.exists_complete {ops : List Operation} (h : History [] ops) :
    ∃ v, Complete v ∧ ops = v ++ [.finish] := by
  cases h with
  | finished hv => exact ⟨_, hv, rfl⟩

/-! ### Reachable stacks -/

/-- What operations on a fresh stack come to, whether or not they were all accepted. -/
structure Reached (bound : Nat) (s : ScopeStack) (accepted : List Operation) : Prop where
  accounted : s.frames = [] ∨ Accounted bound s.frames
  history : History s.frames accepted
  applied : applyAll {} accepted = .ok s

theorem reached_fresh {bound : Nat} (hbound : 1 ≤ bound) : Reached bound {} [] where
  accounted := .inr (.fresh hbound)
  history := .document rfl (holds_nil .document 1)
  applied := rfl

theorem Reached.step {bound : Nat} {ops : List Operation} (h : Reached bound s ops)
    (ho : o.apply s = .ok t) (hbound : ∀ kind arity, o = .enter kind arity → arity ≤ bound) :
    Reached bound t (ops ++ [o]) := by
  have hstep := step_of_apply ho
  rcases h.accounted with hfinished | haccounted
  · rw [hfinished] at hstep
    cases hstep
  · refine ⟨haccounted.step hstep hbound, h.history.step haccounted hstep, ?_⟩
    rw [applyAll_append h.applied, applyAll_singleton, ho]

/-- After every run the stack is one that the accepted operations of the run alone come to. -/
theorem Reached.run {bound : Nat} {before : List Operation} (h : Reached bound s before)
    (ops : List Operation) (hbound : ∀ kind arity, .enter kind arity ∈ ops → arity ≤ bound) :
    Reached bound (each Operation.inPlace ops s).2
      (before ++ accepted ops (each Operation.inPlace ops s).1) := by
  induction ops generalizing s before with
  | nil =>
    change Reached bound s (before ++ [])
    rw [List.append_nil]
    exact h
  | cons o ops ih =>
    have hrest : ∀ kind arity, .enter kind arity ∈ ops → arity ≤ bound :=
      fun kind arity hmem => hbound kind arity (List.mem_cons_of_mem o hmem)
    rw [InPlace.each, Operation.exec_inPlace]
    cases ho : o.apply s with
    | error e => exact ih h hrest
    | ok t =>
      have ht : Reached bound t (before ++ [o]) :=
        h.step ho fun kind arity heq => hbound kind arity (heq ▸ List.mem_cons_self)
      have hall := ih ht hrest
      rw [List.append_assoc] at hall
      exact hall

/-- The document can end exactly if the accepted operations wrote one complete value. -/
theorem Reached.finish_iff {bound : Nat} {ops : List Operation} (h : Reached bound s ops) :
    (∃ t, s.finish = .ok t) ↔ Complete ops := by
  constructor
  · rintro ⟨t, ht⟩
    have hfinished := h.step (o := .finish) ht nofun
    have hframes : t.frames = [] := by
      grind [finish]
    have hhistory := hfinished.history
    rw [hframes] at hhistory
    obtain ⟨v, hv, hops⟩ := hhistory.exists_complete
    rw [List.append_cancel_right hops]
    exact hv
  · intro hops
    have htakes : ({ kind := .document, arity := 1 } : Frame).TakesValue := by
      rw [Frame.TakesValue, if_neg (by decide)]
      decide
    have happlied := hops.acceptedAsValue { kind := .document, arity := 1 } [] htakes
    cases h.applied.symm.trans happlied
    exact ⟨⟨[]⟩, rfl⟩

/-- After every run of operations, with sizes up to a bound, the stack is finished and refuses
everything from then on, or its frames are `Accounted`. A value after an accepted tag is accepted and
stays within the declared size, the counters of frames stay within the bound, and the document can end
exactly if the accepted operations wrote one complete value. -/
theorem frames_account {bound : Nat} (hbound : 1 ≤ bound) {ops : List Operation}
    (hsizes : ∀ kind arity, .enter kind arity ∈ ops → arity ≤ bound)
    {answers : List (Except WriteError Unit)} (h : each Operation.inPlace ops {} = (answers, s)) :
    ((s.frames = [] ∧ ∀ later, each Operation.inPlace later s
        = (List.replicate later.length (.error .finished), s)) ∨ Accounted bound s.frames) ∧
    (∀ i t, s.tag = .ok (i, t) → ∃ f outer, t.value = .ok (⟨.object, i⟩, ⟨f :: outer⟩) ∧
      f.emitted = i + 1 ∧ f.emitted ≤ f.arity) ∧
    (∀ slot t, s.value = .ok (slot, t) → slot.index + 1 ≤ bound) ∧
    ((∃ t, s.finish = .ok t) ↔ Complete (accepted ops answers)) := by
  have hreached : Reached bound s (accepted ops answers) := by
    have hrun := (reached_fresh hbound).run ops hsizes
    rw [h] at hrun
    exact hrun
  refine ⟨?_, fun i t htag => ?_, fun slot t hvalue => ?_, hreached.finish_iff⟩
  · rcases hreached.accounted with hfinished | haccounted
    · obtain ⟨frames⟩ := s
      obtain rfl : frames = [] := hfinished
      exact .inl ⟨rfl, each_finished⟩
    · exact .inr haccounted
  · obtain ⟨f, outer, rfl, hkind, htagged, hfull, rfl, rfl⟩ := exists_of_tag htag
    rcases hreached.accounted with hfinished | haccounted
    · cases hfinished
    · have hfits := (haccounted.fits f List.mem_cons_self).1
      refine ⟨{ f with emitted := f.emitted + 1 }, outer, ?_, rfl, Nat.lt_of_le_of_ne hfits hfull⟩
      rw [value_of_tagged hkind htagged, hkind]
  · obtain ⟨f, outer, rfl, hf, rfl, rfl⟩ := exists_of_value hvalue
    rcases hreached.accounted with hfinished | haccounted
    · cases hfinished
    · have hroom := haccounted.lt_arity hf
      have hfits := (haccounted.fits f List.mem_cons_self).2
      exact Nat.le_trans hroom hfits

/-- An object with an empty tuple in it, and attempts to end too early and to leave out a tag or give a
second one. -/
def retriedOperations : List Operation :=
  [.finish, .enter .object 1, .value, .tag, .tag, .close, .enter .tuple 0, .close, .tag, .finish, .close]

/-- What is accepted of the attempts is one complete value. -/
theorem frames_account_retried : ∃ answers,
    each Operation.inPlace retriedOperations {} = (answers, whole) ∧
    accepted retriedOperations answers = [.enter .object 1, .tag, .enter .tuple 0, .close, .close] ∧
    Accounted (UInt64.size - 1) whole.frames ∧
    Complete [.enter .object 1, .tag, .enter .tuple 0, .close, .close] := by
  have hsizes : ∀ kind arity, .enter kind arity ∈ retriedOperations → arity ≤ UInt64.size - 1 := by
    intro kind arity hmem
    simp only [retriedOperations, List.mem_cons, List.not_mem_nil, Operation.enter.injEq,
      reduceCtorEq, or_false, false_or] at hmem
    rcases hmem with ⟨-, rfl⟩ | ⟨-, rfl⟩ <;> decide
  have hrun : each Operation.inPlace retriedOperations {}
      = ((each Operation.inPlace retriedOperations {}).1, whole) := rfl
  obtain ⟨hframes, -, -, hfinish⟩ := frames_account (by decide) hsizes hrun
  refine ⟨_, hrun, rfl, ?_, hfinish.mp ⟨⟨[]⟩, rfl⟩⟩
  rcases hframes with ⟨hfinished, -⟩ | haccounted
  · cases hfinished
  · exact haccounted

end ScopeStack

end SyntaxExport
