import Mathlib.Data.List.Forall2
import SyntaxExport.Proofs.Layout.Tokens
import SyntaxExport.Proofs.Pass.Nesting
import SyntaxExport.Proofs.Renaming.Basic

/-!
# Layouts of renamed nodes

The layout of a renamed node is the layout of the node with its slots renamed. This holds as far as
the layout has no fault: a position outside its arena need not be outside it in another context.
`Layout.Carries` is this relation, from one layout to the other. What is put together from parts that
carry over carries over, and a fault carries over to anything.
-/

namespace SyntaxExport

variable {ρ : Renaming}

theorem Faultless.of_subset {ts us : List (Token Item)} (h : Faultless ts) (hsub : us ⊆ ts) :
    Faultless us :=
  fun e he => h e (hsub he)

namespace Layout

/-! ### Layouts that carry over -/

variable (ρ) in
/-- `l'` is `l` with renamed slots, unless `l` has a fault. -/
def Carries (l l' : Layout) : Prop :=
  Faultless l.tree.tokens → l'.tree.tokens = l.tree.tokens.map (Token.rename ρ)

variable (ρ) in
/-- The fields have the same names and carry over one by one. -/
def FieldsCarry (fs fs' : Fields) : Prop :=
  List.Forall₂ (fun f f' => f'.1 = f.1 ∧ Carries ρ f.2 f'.2) fs fs'

variable (ρ) in
/-- The elements carry over one by one. -/
def ItemsCarry (ls ls' : List Layout) : Prop :=
  List.Forall₂ (Carries ρ) ls ls'

theorem FieldsCarry.flatMap_tokens {fs fs' : Fields} (h : FieldsCarry ρ fs fs') :
    Faultless (fs.flatMap ofField) →
    fs'.flatMap ofField = (fs.flatMap ofField).map (Token.rename ρ) := by
  induction h with
  | nil => exact fun _ => rfl
  | @cons f f' fs fs' hfirst _ ih =>
    intro hfault
    obtain ⟨hname, hcarry⟩ := hfirst
    rw [List.flatMap_cons] at hfault
    have hl : Faultless f.2.tree.tokens :=
      hfault.of_subset fun _ ht => List.mem_append_left _ (List.mem_cons_of_mem _ ht)
    have hfs : Faultless (fs.flatMap ofField) := hfault.of_subset (List.subset_append_right _ _)
    rw [List.flatMap_cons, List.flatMap_cons, List.map_append, ih hfs, ofField, hname, hcarry hl]
    rfl

theorem ItemsCarry.flatMap_tokens {ls ls' : List Layout} (h : ItemsCarry ρ ls ls') :
    Faultless (ls.flatMap fun l => l.tree.tokens) →
    (ls'.flatMap fun l => l.tree.tokens)
      = (ls.flatMap fun l => l.tree.tokens).map (Token.rename ρ) := by
  induction h with
  | nil => exact fun _ => rfl
  | @cons l l' ls ls' hcarry _ ih =>
    intro hfault
    rw [List.flatMap_cons] at hfault
    have hl : Faultless l.tree.tokens := hfault.of_subset (List.subset_append_left _ _)
    have hls := hfault.of_subset (List.subset_append_right _ _)
    rw [List.flatMap_cons, List.flatMap_cons, List.map_append, ih hls, hcarry hl]

/-- A container or variant carries over with what is in it. -/
theorem rename_tokens {t t' : Token Item} {ts ts' : List (Token Item)} (ht : t' = t.rename ρ)
    (hts : Faultless ts → ts' = ts.map (Token.rename ρ)) :
    Faultless (t :: (ts ++ [.close])) →
      t' :: (ts' ++ [.close]) = (t :: (ts ++ [.close])).map (Token.rename ρ) := by
  intro hfault
  have hinner : Faultless ts :=
    hfault.of_subset fun _ ht => List.mem_cons_of_mem _ (List.mem_append_left _ ht)
  rw [ht, hts hinner, List.map_cons, List.map_append]
  rfl

theorem carries_object {fs fs' : Fields} (n n' : Nat) (h : FieldsCarry ρ fs fs') :
    Carries ρ (object n fs) (object n' fs') := by
  have hlength : fs.length = fs'.length := List.Forall₂.length_eq h
  rw [Carries, tokens_object, tokens_object, hlength]
  exact rename_tokens rfl h.flatMap_tokens

theorem carries_array {ls ls' : List Layout} (n n' : Nat) (h : ItemsCarry ρ ls ls') :
    Carries ρ (array n ls) (array n' ls') := by
  have hlength : ls.length = ls'.length := List.Forall₂.length_eq h
  rw [Carries, tokens_array, tokens_array, hlength]
  exact rename_tokens rfl h.flatMap_tokens

theorem carries_tuple {ls ls' : List Layout} (n n' : Nat) (h : ItemsCarry ρ ls ls') :
    Carries ρ (tuple n ls) (tuple n' ls') := by
  have hlength : ls.length = ls'.length := List.Forall₂.length_eq h
  rw [Carries, tokens_tuple, tokens_tuple, hlength]
  exact rename_tokens rfl h.flatMap_tokens

theorem carries_variant {l l' : Layout} (tag : String) (h : Carries ρ l l') :
    Carries ρ (variant tag l) (variant tag l') := by
  rw [Carries, tokens_variant, tokens_variant]
  exact rename_tokens rfl h

/-! ### Leaves -/

@[simp] theorem carries_fault (e : ExportError) (l : Layout) : Carries ρ (fault e) l :=
  fun h => absurd (List.mem_singleton_self _) (h e)

theorem carries_leaf (a : Item) {a' : Item} (ha : ∀ e, a ≠ .fault e) :
    Carries ρ (.leaf a) (.leaf a') ↔ a' = a.rename ρ := by
  have hfault : Faultless [.leaf a] := by
    intro e he
    cases List.mem_singleton.mp he
    exact ha e rfl
  constructor
  · intro h
    cases h hfault
    rfl
  · rintro rfl
    exact fun _ => rfl

@[simp] theorem carries_scalar (x : Scalar) :
    Carries ρ (.leaf (.scalar x)) (.leaf (.scalar x)) :=
  (carries_leaf (.scalar x) nofun).mpr rfl

@[simp] theorem carries_identity {n n' : NodeRef} :
    Carries ρ (identity n) (identity n') ↔ n' = n.rename ρ := by
  rw [carries_leaf (.identity n) nofun, Item.rename, Item.identity.injEq]

@[simp] theorem carries_location (loc : Option SourceLocation) :
    Carries ρ (location loc) (location (loc.map (SourceLocation.rename ρ))) :=
  (carries_leaf (.location loc) nofun).mpr rfl

@[simp] theorem carries_define {s s' : Site} :
    Carries ρ (.leaf (.define s)) (.leaf (.define s')) ↔ s' = s.rename ρ := by
  rw [carries_leaf (.define s) nofun, Item.rename, Item.define.injEq]

/-! ### Fields and elements

Parts that carry over are taken off from the front. -/

@[simp] theorem fieldsCarry_nil : FieldsCarry ρ [] [] :=
  .nil

@[simp] theorem fieldsCarry_cons {l l' : Layout} {fs fs' : Fields} {name : String}
    (h : Carries ρ l l') :
    FieldsCarry ρ ((name, l) :: fs) ((name, l') :: fs') ↔ FieldsCarry ρ fs fs' := by
  rw [FieldsCarry, List.forall₂_cons]
  exact and_iff_right ⟨rfl, h⟩

@[simp] theorem fieldsCarry_append {fs fs' gs gs' : Fields} (h : FieldsCarry ρ fs fs') :
    FieldsCarry ρ (fs ++ gs) (fs' ++ gs') ↔ FieldsCarry ρ gs gs' := by
  induction h with
  | nil => exact Iff.rfl
  | cons hfirst _ ih =>
    rw [FieldsCarry, List.cons_append, List.cons_append, List.forall₂_cons, and_iff_right hfirst]
    exact ih

@[simp] theorem itemsCarry_nil : ItemsCarry ρ [] [] :=
  .nil

@[simp] theorem itemsCarry_cons {l l' : Layout} {ls ls' : List Layout} (h : Carries ρ l l') :
    ItemsCarry ρ (l :: ls) (l' :: ls') ↔ ItemsCarry ρ ls ls' := by
  rw [ItemsCarry, List.forall₂_cons]
  exact and_iff_right h

@[simp] theorem itemsCarry_append {ls ls' ms ms' : List Layout} (h : ItemsCarry ρ ls ls') :
    ItemsCarry ρ (ls ++ ms) (ls' ++ ms') ↔ ItemsCarry ρ ms ms' := by
  induction h with
  | nil => exact Iff.rfl
  | cons hfirst _ ih =>
    rw [ItemsCarry, List.cons_append, List.cons_append, List.forall₂_cons, and_iff_right hfirst]
    exact ih

@[simp] theorem fieldsCarry_unless {c : Prop} [Decidable c] {l l' : Layout} (name : String)
    (h : Carries ρ l l') :
    FieldsCarry ρ (if c then [] else [(name, l)]) (if c then [] else [(name, l')]) := by
  by_cases hc : c
  · rw [if_pos hc, if_pos hc]
    exact fieldsCarry_nil
  · rw [if_neg hc, if_neg hc]
    exact (fieldsCarry_cons h).mpr fieldsCarry_nil

@[simp] theorem fieldsCarry_flag (name : String) (b : Bool) :
    FieldsCarry ρ (flag name b) (flag name b) := by
  cases b with
  | false => exact fieldsCarry_nil
  | true => exact (fieldsCarry_cons (carries_scalar _)).mpr fieldsCarry_nil

variable {α : Type} {f f' : α → Layout}

@[simp] theorem fieldsCarry_optional {r : α → α} (name : String) (a : Option α)
    (h : ∀ x, Carries ρ (f x) (f' (r x))) :
    FieldsCarry ρ (optional name a f) (optional name (a.map r) f') := by
  cases a with
  | none => exact fieldsCarry_nil
  | some x => exact (fieldsCarry_cons (h x)).mpr fieldsCarry_nil

@[simp] theorem fieldsCarry_optional_same (name : String) (a : Option α)
    (h : ∀ x, Carries ρ (f x) (f' x)) :
    FieldsCarry ρ (optional name a f) (optional name a f') := by
  cases a with
  | none => exact fieldsCarry_nil
  | some x => exact (fieldsCarry_cons (h x)).mpr fieldsCarry_nil

@[simp] theorem carries_list {r : α → α} (as : List α) (h : ∀ x, Carries ρ (f x) (f' (r x))) :
    Carries ρ (list f as) (list f' (as.map r)) := by
  refine carries_array _ _ ?_
  rw [List.map_map]
  induction as with
  | nil => exact itemsCarry_nil
  | cons x as ih => exact (itemsCarry_cons (h x)).mpr ih

@[simp] theorem carries_list_same (as : List α) (h : ∀ x, Carries ρ (f x) (f' x)) :
    Carries ρ (list f as) (list f' as) := by
  have hsame := carries_list (r := id) as h
  rw [List.map_id] at hsame
  exact hsame

@[simp] theorem fieldsCarry_nonempty {r : α → α} (name : String) (as : List α)
    (h : ∀ x, Carries ρ (f x) (f' (r x))) :
    FieldsCarry ρ (nonempty name as f) (nonempty name (as.map r) f') := by
  rw [nonempty, nonempty, List.isEmpty_map]
  cases as with
  | nil => exact fieldsCarry_nil
  | cons x as => exact (fieldsCarry_cons (carries_list _ h)).mpr fieldsCarry_nil

@[simp] theorem fieldsCarry_nonempty_same (name : String) (as : List α)
    (h : ∀ x, Carries ρ (f x) (f' x)) :
    FieldsCarry ρ (nonempty name as f) (nonempty name as f') := by
  have hsame := fieldsCarry_nonempty (r := id) name as h
  rw [List.map_id] at hsame
  exact hsame

end Layout

end SyntaxExport
