import SyntaxExport.Kind.Family

/-!
# Lineages

A lineage begins with the root of its family, each of its levels lies above the later ones, and it
holds the lineages of its levels. What the levels of a kind add to a node is a list for each level, one
after the other, so a level has the same place in the tuples of all kinds below it (`NodeKind.offset`).
The last section splits and joins such lists.
-/

namespace SyntaxExport.NodeKind

variable {κ : Type} [NodeKind κ]

/-- What holds of the roots and passes from a kind to its children holds of every kind. -/
@[elab_as_elim]
theorem parent_induction {P : κ → Prop} (root : ∀ k, parent k = none → P k)
    (child : ∀ k p, parent k = some p → P p → P k) (k : κ) : P k := by
  cases h : parent k with
  | none => exact root k h
  | some p => exact child k p h (parent_induction root child p)
termination_by rank k
decreasing_by exact rank_lt_of_parent h

theorem rank_le_of_mem_lineage {k l : κ} (h : l ∈ lineage k) : rank l ≤ rank k := by
  induction k using parent_induction with
  | root k hk =>
    rw [lineage_of_root hk, List.mem_singleton] at h
    exact h ▸ Nat.le_refl _
  | child k p hk ih =>
    rw [lineage_of_parent hk, List.mem_append, List.mem_singleton] at h
    have hlt := rank_lt_of_parent hk
    rcases h with h | rfl
    · have hle := ih h
      omega
    · exact Nat.le_refl _

/-- Each level lies above the later ones. -/
theorem pairwise_lineage (k : κ) : (lineage k).Pairwise fun a b => a ∈ lineage b ∧ a ≠ b := by
  induction k using parent_induction with
  | root k hk =>
    rw [lineage_of_root hk]
    exact List.pairwise_singleton _ _
  | child k p hk ih =>
    rw [lineage_of_parent hk, List.pairwise_append]
    refine ⟨ih, List.pairwise_singleton _ _, ?_⟩
    intro l hl m hm
    rw [List.mem_singleton.mp hm, lineage_of_parent hk]
    have hle := rank_le_of_mem_lineage hl
    have hlt := rank_lt_of_parent hk
    refine ⟨List.mem_append_left _ hl, ?_⟩
    rintro rfl
    omega

theorem nodup_lineage (k : κ) : (lineage k).Nodup :=
  (pairwise_lineage k).imp And.right

/-- The levels above a level of a kind are levels of the kind. -/
theorem mem_lineage_trans {k l m : κ} (hl : l ∈ lineage k) (hm : m ∈ lineage l) : m ∈ lineage k := by
  induction k using parent_induction with
  | root k hk =>
    rw [lineage_of_root hk, List.mem_singleton] at hl
    rwa [hl] at hm
  | child k p hk ih =>
    rw [lineage_of_parent hk, List.mem_append, List.mem_singleton] at hl ⊢
    rcases hl with hl | rfl
    · exact .inl (ih hl)
    · rwa [lineage_of_parent hk, List.mem_append, List.mem_singleton] at hm

/-- A lineage begins with the only root there is. -/
theorem exists_lineage_eq_cons {root : κ} (hroot : ∀ k : κ, parent k = none → k = root) (k : κ) :
    ∃ rest, lineage k = root :: rest ∧ root ∉ rest := by
  have hhead : ∃ rest, lineage k = root :: rest := by
    induction k using parent_induction with
    | root k hk => exact ⟨[], by rw [lineage_of_root hk, hroot k hk]⟩
    | child k p hk ih =>
      obtain ⟨rest, hrest⟩ := ih
      exact ⟨rest ++ [k], by rw [lineage_of_parent hk, hrest, List.cons_append]⟩
  obtain ⟨rest, hrest⟩ := hhead
  have hnodup := nodup_lineage k
  rw [hrest, List.nodup_cons] at hnodup
  exact ⟨rest, hrest, hnodup.1⟩

theorem root_mem_lineage {root : κ} (hroot : ∀ k : κ, parent k = none → k = root) (k : κ) :
    root ∈ lineage k := by
  obtain ⟨rest, hrest, -⟩ := exists_lineage_eq_cons hroot k
  rw [hrest]
  exact List.mem_cons_self

/-- The lineage of a level is the upper part of the lineage of the kind. -/
theorem exists_lineage_eq_append {k l : κ} (h : l ∈ lineage k) :
    ∃ below, lineage k = lineage l ++ below := by
  induction k using parent_induction with
  | root k hk =>
    rw [lineage_of_root hk, List.mem_singleton] at h
    exact ⟨[], by rw [h, List.append_nil]⟩
  | child k p hk ih =>
    rw [lineage_of_parent hk, List.mem_append, List.mem_singleton] at h
    rcases h with h | rfl
    · obtain ⟨below, hbelow⟩ := ih h
      exact ⟨below ++ [k], by rw [lineage_of_parent hk, hbelow, List.append_assoc]⟩
    · exact ⟨[], (List.append_nil _).symm⟩

/-! ### Places of levels -/

/-- The levels above a kind. -/
def above (k : κ) : List κ :=
  match parent k with
  | none => []
  | some p => lineage p

/-- The place of the first field of a level: behind the tuple of the level above it. -/
def offset (k : κ) : Nat :=
  match parent k with
  | none => 0
  | some p => tupleSize p

theorem lineage_eq_above (k : κ) : lineage k = above k ++ [k] := by
  rw [above]
  split
  · next h => exact lineage_of_root h
  · next p h => exact lineage_of_parent h

/-- The tuple of a level ends with its own fields. -/
theorem offset_add_ownFieldCount (k : κ) : offset k + ownFieldCount k = tupleSize k := by
  rw [offset]
  split
  · next h => simp [tupleSize, lineage_of_root h]
  · next p h => exact (tupleSize_of_parent h).symm

/-! ### Parts of levels -/

/-- Two parts of every level, where no second part comes before a first part of a later level. -/
theorem flatMap_append_of_pairwise {α β : Type} {f g : α → List β} : ∀ {l : List α},
    l.Pairwise (fun a b => g a = [] ∨ f b = []) →
      l.flatMap (fun a => f a ++ g a) = l.flatMap f ++ l.flatMap g
  | [], _ => rfl
  | a :: l, h => by
    obtain ⟨ha, hl⟩ := List.pairwise_cons.mp h
    have hswap : g a ++ l.flatMap f = l.flatMap f ++ g a := by
      by_cases hg : g a = []
      · rw [hg, List.nil_append, List.append_nil]
      · have hf : l.flatMap f = [] :=
          List.flatMap_eq_nil_iff.mpr fun b hb => (ha b hb).resolve_left hg
        rw [hf, List.nil_append, List.append_nil]
    rw [List.flatMap_cons, List.flatMap_cons, List.flatMap_cons, flatMap_append_of_pairwise hl,
      List.append_assoc, List.append_assoc, ← List.append_assoc (g a), hswap, List.append_assoc]

/-- A part that at most one level has. -/
theorem flatMap_ite_of_pairwise {α β : Type} {p : α → Prop} [DecidablePred p] (part : List β) :
    ∀ {l : List α}, l.Pairwise (fun a b => p a → ¬ p b) →
      l.flatMap (fun a => if p a then part else []) = if ∃ a ∈ l, p a then part else []
  | [], _ => by simp
  | a :: l, h => by
    obtain ⟨ha, hl⟩ := List.pairwise_cons.mp h
    rw [List.flatMap_cons, flatMap_ite_of_pairwise part hl]
    by_cases hp : p a
    · have hrest : ¬ ∃ b ∈ l, p b := fun ⟨b, hb, hpb⟩ => ha b hb hp hpb
      rw [if_pos hp, if_neg hrest, if_pos ⟨a, List.mem_cons_self, hp⟩, List.append_nil]
    · rw [if_neg hp, List.nil_append]
      simp [hp]

/-- A part that no level has together with one above it. -/
theorem flatMap_ite_lineage {β : Type} {p : κ → Prop} [DecidablePred p]
    (h : ∀ a, p a → ∀ b, p b → a ∈ lineage b → a = b) (part : List β) (k : κ) :
    (lineage k).flatMap (fun level => if p level then part else [])
      = if ∃ level ∈ lineage k, p level then part else [] := by
  refine flatMap_ite_of_pairwise part ((pairwise_lineage k).imp ?_)
  intro a b ⟨hab, hne⟩ ha hb
  exact hne (h a ha b hb hab)

section Root

variable [DecidableEq κ] {root : κ} {β : Type}

/-- A part that only the first level has. -/
theorem flatMap_ite_root (hroot : ∀ k : κ, parent k = none → k = root) (k : κ) (first : List β) :
    (lineage k).flatMap (fun l => if l = root then first else []) = first := by
  have hmem : ∃ level ∈ lineage k, level = root := ⟨root, root_mem_lineage hroot k, rfl⟩
  rw [flatMap_ite_lineage (fun a ha b hb _ => ha.trans hb.symm) first k, if_pos hmem]

/-- What only the first level has comes first. -/
theorem flatMap_root (hroot : ∀ k : κ, parent k = none → k = root) (k : κ) (first : List β)
    (level : κ → List β) :
    (lineage k).flatMap (fun l => (if l = root then first else []) ++ level l)
      = first ++ (lineage k).flatMap level := by
  obtain ⟨rest, hrest, hnotMem⟩ := exists_lineage_eq_cons hroot k
  have hlater : ∀ l ∈ rest, (if l = root then first else []) = [] := fun l hl =>
    if_neg (ne_of_mem_of_not_mem hl hnotMem)
  have hpairwise : (lineage k).Pairwise
      fun a b => level a = [] ∨ (if b = root then first else []) = [] := by
    have hnodup := nodup_lineage k
    rw [hrest, List.nodup_cons] at hnodup
    rw [hrest, List.pairwise_cons]
    exact ⟨fun l hl => .inr (hlater l hl), hnodup.2.imp_of_mem fun _ hl _ => .inr (hlater _ hl)⟩
  rw [flatMap_append_of_pairwise hpairwise, flatMap_ite_root hroot]

end Root

end SyntaxExport.NodeKind
