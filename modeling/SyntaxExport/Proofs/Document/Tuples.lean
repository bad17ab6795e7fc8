import Mathlib.Data.List.Forall2
import SyntaxExport.Proofs.Pass.Outline

/-!
# Tuples of nodes

A node stands in a document as a tuple that begins with an object that begins with a pointer. The
tuples of a document are filled from the tuples of its tree, one by one and in the same order
(`Tree.filled_tuples`), and their pointers are those of the outline (`Tree.pointers_tuples`).
-/

namespace SyntaxExport

/-- The pointer of a mark that is a tuple. -/
def Mark.pointer? {α : Type} : Mark α → Option α
  | .node a => some a
  | _ => none

namespace Tree

variable {α : Type} [Legible α]

mutual

/-- The elements of the tuples of nodes, in document order. -/
def tuples : Tree α → List (List (Tree α))
  | .leaf _ => []
  | .object fs => fieldTuples fs
  | .array ts => itemTuples ts
  | .tuple ts => ((pointer? ts).toList.map fun _ => ts) ++ itemTuples ts
  | .variant _ t => t.tuples

/-- The tuples in the fields of an object. -/
def fieldTuples : List (String × Tree α) → List (List (Tree α))
  | [] => []
  | (_, t) :: fs => t.tuples ++ fieldTuples fs

/-- The tuples in the elements of an array or tuple. -/
def itemTuples : List (Tree α) → List (List (Tree α))
  | [] => []
  | t :: ts => t.tuples ++ itemTuples ts

end

/-! ### Pointers of tuples -/

/-- Locations are no tuples of nodes. -/
theorem tuples_of_parts {t : Tree Item} (h : ∀ p ∈ t.parts, ∃ loc, p = .leaf (.location loc)) :
    t.tuples = [] := by
  have hitems : ∀ {ts : List (Tree Item)}, (∀ p ∈ ts, ∃ loc, p = .leaf (.location loc)) →
      itemTuples ts = [] := by
    intro ts
    induction ts with
    | nil => exact fun _ => rfl
    | cons t ts ih =>
      intro hts
      obtain ⟨loc, rfl⟩ := hts t List.mem_cons_self
      exact ih fun p hp => hts p (List.mem_cons_of_mem _ hp)
  cases t with
  | tuple ts =>
    have hpointer : pointer? ts = none := by
      cases ts with
      | nil => rfl
      | cons t ts =>
        obtain ⟨loc, rfl⟩ := h t List.mem_cons_self
        rfl
    have hempty : itemTuples ts = [] := hitems h
    rw [tuples, hpointer, hempty]
    rfl
  | leaf | object | array | variant =>
    obtain ⟨loc, hloc⟩ := h _ (List.mem_singleton.mpr rfl)
    cases hloc
    all_goals rfl

mutual

/-- The tuples of a tree are those of its outline. -/
theorem pointers_tuples : ∀ {t : Tree Item} {owner : Option Item}, Placed (t.outline owner) →
    t.tuples.map pointer? = ((t.outline owner).filterMap Mark.pointer?).map some
  | .leaf a, owner, _ => by
    rw [tuples, outline]
    split <;> rfl
  | .object fs, owner, h => by
    have hfields := pointers_fieldTuples (placed_append h).2
    rw [tuples, outline, hfields, List.filterMap_append]
    cases leading? fs <;> rfl
  | .array ts, owner, h => pointers_itemTuples h
  | .tuple ts, owner, h => by
    have hitems := pointers_itemTuples (placed_append h).2
    rw [tuples, outline, List.map_append, hitems, List.filterMap_append, List.map_append]
    cases hts : pointer? ts with
    | none => rfl
    | some a => simp [Mark.pointer?, hts]
  | .variant tag t, owner, h => by
    have hargument : Placed (t.outline owner) := h
    exact pointers_tuples (t := t) hargument

theorem pointers_fieldTuples : ∀ {fs : List (String × Tree Item)} {owner : Option Item},
    Placed (outlineFields owner fs) →
    (fieldTuples fs).map pointer? = ((outlineFields owner fs).filterMap Mark.pointer?).map some
  | [], _, _ => rfl
  | (name, t) :: fs, owner, h => by
    rw [outlineFields] at h ⊢
    obtain ⟨hfirst, hrest⟩ := placed_append h
    rw [fieldTuples, List.map_append, pointers_fieldTuples hrest, List.filterMap_append,
      List.map_append]
    congr 1
    split at hfirst
    · next hname =>
      obtain ⟨-, hparts⟩ := hfirst _ (List.mem_singleton.mpr rfl)
      rw [if_pos hname, tuples_of_parts hparts]
      rfl
    · next hname =>
      rw [if_neg hname]
      exact pointers_tuples hfirst

theorem pointers_itemTuples : ∀ {ts : List (Tree Item)} {owner : Option Item},
    Placed (outlineItems owner ts) →
    (itemTuples ts).map pointer? = ((outlineItems owner ts).filterMap Mark.pointer?).map some
  | [], _, _ => rfl
  | t :: ts, owner, h => by
    rw [outlineItems] at h ⊢
    obtain ⟨hfirst, hrest⟩ := placed_append h
    rw [itemTuples, List.map_append, pointers_itemTuples hrest, pointers_tuples hfirst,
      List.filterMap_append, List.map_append]

end

/-! ### Tuples of expanded trees -/

section Expand

variable {define : Site → Tree Item}

mutual

/-- A tuple of an expanded tree is an expanded tuple of the tree, or stands in what is defined in one
of its slots. -/
theorem of_mem_tuples_bind (h : ∀ s, (define s).IsHeaded) {us : List (Tree Item)} :
    ∀ {t : Tree Item}, us ∈ (t.bind (Item.expand define)).tuples →
      (∃ ts ∈ t.tuples, us = bindItems ts (Item.expand define)) ∨ ∃ s, us ∈ (define s).tuples
  | .leaf (.define s), hus => .inr ⟨s, hus⟩
  | .leaf (.scalar _), hus => by cases hus
  | .leaf (.identity _), hus => by cases hus
  | .leaf (.location _), hus => by cases hus
  | .leaf (.fault _), hus => by cases hus
  | .object fs, hus => of_mem_fieldTuples_bind h hus
  | .array ts, hus => of_mem_itemTuples_bind h hus
  | .tuple ts, hus => by
    rw [bind, tuples, pointer?_bindItems h, List.mem_append] at hus
    rcases hus with hus | hus
    · obtain ⟨a, ha, rfl⟩ := List.mem_map.mp hus
      exact .inl ⟨ts, List.mem_append_left _ (List.mem_map.mpr ⟨a, ha, rfl⟩), rfl⟩
    · rcases of_mem_itemTuples_bind h hus with ⟨ts', hts', rfl⟩ | hsite
      · exact .inl ⟨ts', List.mem_append_right _ hts', rfl⟩
      · exact .inr hsite
  | .variant tag t, hus => of_mem_tuples_bind h (t := t) hus

theorem of_mem_fieldTuples_bind (h : ∀ s, (define s).IsHeaded) {us : List (Tree Item)} :
    ∀ {fs : List (String × Tree Item)}, us ∈ fieldTuples (bindFields fs (Item.expand define)) →
      (∃ ts ∈ fieldTuples fs, us = bindItems ts (Item.expand define)) ∨ ∃ s, us ∈ (define s).tuples
  | [], hus => by cases hus
  | (name, t) :: fs, hus => by
    rw [bindFields, fieldTuples, List.mem_append] at hus
    rcases hus with hus | hus
    · rcases of_mem_tuples_bind h hus with ⟨ts, hts, rfl⟩ | hsite
      · exact .inl ⟨ts, List.mem_append_left _ hts, rfl⟩
      · exact .inr hsite
    · rcases of_mem_fieldTuples_bind h hus with ⟨ts, hts, rfl⟩ | hsite
      · exact .inl ⟨ts, List.mem_append_right _ hts, rfl⟩
      · exact .inr hsite

theorem of_mem_itemTuples_bind (h : ∀ s, (define s).IsHeaded) {us : List (Tree Item)} :
    ∀ {ts : List (Tree Item)}, us ∈ itemTuples (bindItems ts (Item.expand define)) →
      (∃ ts' ∈ itemTuples ts, us = bindItems ts' (Item.expand define)) ∨ ∃ s, us ∈ (define s).tuples
  | [], hus => by cases hus
  | t :: ts, hus => by
    rw [bindItems, itemTuples, List.mem_append] at hus
    rcases hus with hus | hus
    · rcases of_mem_tuples_bind h hus with ⟨ts', hts', rfl⟩ | hsite
      · exact .inl ⟨ts', List.mem_append_left _ hts', rfl⟩
      · exact .inr hsite
    · rcases of_mem_itemTuples_bind h hus with ⟨ts', hts', rfl⟩ | hsite
      · exact .inl ⟨ts', List.mem_append_right _ hts', rfl⟩
      · exact .inr hsite

end

end Expand

/-! ### Filled tuples -/

section Filled

variable {ctx : Context} {opts : Options} {last : IdentityTable}

/-- A tuple of a node, and the tuple that is filled from it. -/
def FillsTuple (ctx : Context) (opts : Options) (last : IdentityTable) (ts : List (Tree Item))
    (vs : List Value) : Prop :=
  ∃ n s s', pointer? ts = some (.identity n)
    ∧ pointer? vs = some (.string (last.text opts.identityMode n))
    ∧ fillItems ctx opts ts s = .ok (vs, s')

theorem tuples_of_fill_leaf {a : Item} {s s' : Slots} {v : Value}
    (h : a.fill ctx opts s = .ok (v, s')) : v.tuples = [] := by
  cases a with
  | scalar x => cases h; rfl
  | identity n => cases h; rfl
  | location loc =>
    obtain ⟨hv, -⟩ := fill_location h
    cases hd : s.cursor.delta loc with
    | absent | column | line => rw [hd] at hv; cases hv; rfl
    | file f l c =>
      rw [hd, LocationDelta.value] at hv
      split at hv
      · cases hv
      · cases hv; rfl
  | define | fault => cases h

mutual

/-- The tuples of a document are filled from the tuples of its tree. -/
theorem filled_tuples : ∀ {t : Tree Item} {s s' : Slots} {v : Value},
    (∀ ts ∈ t.tuples, ∃ n, pointer? ts = some (.identity n)) → t.fill ctx opts s = .ok (v, s') →
    s'.identities.Extends last → List.Forall₂ (FillsTuple ctx opts last) t.tuples v.tuples
  | .leaf a, s, s', v, _, h, _ => by
    rw [tuples_of_fill_leaf h]
    exact .nil
  | .object fs, s, s', v, hn, h, hlast => by
    obtain ⟨gs, hfs, rfl⟩ := of_fill_object h
    exact filled_fieldTuples hn hfs hlast
  | .array ts, s, s', v, hn, h, hlast => by
    obtain ⟨vs, hts, rfl⟩ := of_fill_array h
    exact filled_itemTuples hn hts hlast
  | .tuple ts, s, s', v, hn, h, hlast => by
    obtain ⟨vs, hts, rfl⟩ := of_fill_tuple h
    have hmirrors := mirrors_pointer? hts hlast
    have hitems := filled_itemTuples (fun us hus => hn us (List.mem_append_right _ hus)) hts hlast
    rw [tuples, tuples]
    cases hpointer : pointer? ts with
    | none =>
      rw [hmirrors.2 hpointer]
      exact hitems
    | some a =>
      obtain ⟨n, hts'⟩ := hn ts (by rw [tuples, hpointer]; exact List.mem_cons_self)
      rw [hmirrors.1 n hts']
      exact .cons ⟨n, s, s', hts', hmirrors.1 n hts', hts⟩ hitems
  | .variant tag t, s, s', v, hn, h, hlast => by
    obtain ⟨u, ht, rfl⟩ := of_fill_variant h
    exact filled_tuples (t := t) (v := u) hn ht hlast

theorem filled_fieldTuples : ∀ {fs : List (String × Tree Item)} {s s' : Slots}
    {gs : List (String × Value)}, (∀ ts ∈ fieldTuples fs, ∃ n, pointer? ts = some (.identity n)) →
    fillFields ctx opts fs s = .ok (gs, s') → s'.identities.Extends last →
    List.Forall₂ (FillsTuple ctx opts last) (fieldTuples fs) (fieldTuples gs)
  | [], s, s', gs, _, h, _ => by
    cases h
    exact .nil
  | (name, t) :: fs, s, s', gs, hn, h, hlast => by
    obtain ⟨v, s₁, hs, ht, hfs, rfl⟩ := of_fillFields_cons h
    have hlast₁ := (extends_of_fillFields hfs).trans hlast
    exact List.rel_append (filled_tuples (fun us hus => hn us (List.mem_append_left _ hus)) ht hlast₁)
      (filled_fieldTuples (fun us hus => hn us (List.mem_append_right _ hus)) hfs hlast)

theorem filled_itemTuples : ∀ {ts : List (Tree Item)} {s s' : Slots} {vs : List Value},
    (∀ us ∈ itemTuples ts, ∃ n, pointer? us = some (.identity n)) →
    fillItems ctx opts ts s = .ok (vs, s') → s'.identities.Extends last →
    List.Forall₂ (FillsTuple ctx opts last) (itemTuples ts) (itemTuples vs)
  | [], s, s', vs, _, h, _ => by
    cases h
    exact .nil
  | t :: ts, s, s', vs, hn, h, hlast => by
    obtain ⟨v, s₁, us, ht, hts, rfl⟩ := of_fillItems_cons h
    have hlast₁ := (extends_of_fillItems hts).trans hlast
    exact List.rel_append (filled_tuples (fun us hus => hn us (List.mem_append_left _ hus)) ht hlast₁)
      (filled_itemTuples (fun us hus => hn us (List.mem_append_right _ hus)) hts hlast)

end

end Filled

end Tree

end SyntaxExport
