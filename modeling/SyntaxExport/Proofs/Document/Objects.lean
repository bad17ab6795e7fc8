import SyntaxExport.Proofs.Document.Bind
import SyntaxExport.Proofs.Document.Decoding

/-!
# The objects of a document

`Tree.objects` lists the objects at every depth of a document. An object is proper if its fields have
different names and its booleans are its flags, all of them true (`Tree.ProperFields`); a flag that
does not hold has no field. A document is proper if all its objects are, and it stays proper if proper
trees are put in the place of its leaves (`Tree.Proper.bind`).
-/

namespace SyntaxExport

/-- The names of the fields that are flags. -/
def flagNames : List String :=
  ["is_hidden", "is_implicit", "is_used", "is_this_declaration_referenced", "is_invalid_decl",
    "has_external_lexical_storage", "has_external_visible_storage", "is_module_private",
    "is_complete_definition", "is_c_like", "is_inline", "is_virtual", "is_pure",
    "is_delete_as_written", "is_mutable", "is_synthesize", "is_nrvo_variable", "is_instance_method",
    "is_variadic", "is_by_ref", "is_nested", "captures_cxx_this", "is_inherited", "is_self_closing",
    "is_direction_explicit", "requires_ADL", "is_overloaded", "is_free_ivar", "is_signed",
    "is_postfix", "is_arrow", "is_elidable", "requires_zero_initialization", "is_array",
    "is_definition_found", "is_super_receiver", "is_messaging_getter", "is_messaging_setter"]

/-- The boolean that a field has: a flag that is written is true, and no other field has a boolean. -/
def flagValue? (name : String) : Option Bool :=
  if name ∈ flagNames then some true else none

/-- The boolean of a scalar. -/
def Scalar.boolean? : Scalar → Option Bool
  | .boolean b => some b
  | _ => none

namespace Tree

variable {α β : Type}

/-- The fields of the object of a name; a reader that keeps objects as maps keeps the last. -/
def lastField? : Tree α → String → Option (Tree α)
  | .object fs, name => fs.reverse.lookup name
  | _, _ => none

/-- The leaf that a tree is. -/
def leaf? : Tree α → Option α
  | .leaf a => some a
  | _ => none

mutual

/-- The fields of every object of a tree, the outer objects first. -/
def objects : Tree α → List (List (String × Tree α))
  | .leaf _ => []
  | .object fs => fs :: fieldObjects fs
  | .array ts | .tuple ts => itemObjects ts
  | .variant _ t => t.objects

/-- The fields of every object inside of the fields of an object. -/
def fieldObjects : List (String × Tree α) → List (List (String × Tree α))
  | [] => []
  | (_, t) :: fs => t.objects ++ fieldObjects fs

/-- The fields of every object inside of the elements of an array or tuple. -/
def itemObjects : List (Tree α) → List (List (String × Tree α))
  | [] => []
  | t :: ts => t.objects ++ itemObjects ts

end

/-- The fields have different names, and the booleans among them are the flags. -/
structure ProperFields (truth? : α → Option Bool) (fs : List (String × Tree α)) : Prop where
  nodup : (fs.map (·.1)).Nodup
  flags : ∀ name t, (name, t) ∈ fs → t.leaf?.bind truth? = flagValue? name

/-- Every object of a tree is proper. -/
def Proper (truth? : α → Option Bool) (t : Tree α) : Prop :=
  ∀ fs ∈ t.objects, ProperFields truth? fs

/-! ### Fields by name -/

/-- Where the names are different, a field is found by its name. -/
theorem lookup_eq_some_iff : ∀ {fs : List (String × Tree α)}, (fs.map (·.1)).Nodup →
    ∀ {name : String} {t : Tree α}, fs.lookup name = some t ↔ (name, t) ∈ fs
  | [], _, name, t => by simp
  | (name', t') :: fs, h, name, t => by
    obtain ⟨hfirst, hrest⟩ := List.nodup_cons.mp h
    rw [List.lookup_cons, List.mem_cons]
    by_cases hname : name = name'
    · subst hname
      have hnotMem : (name, t) ∉ fs := fun hmem => hfirst (List.mem_map.mpr ⟨_, hmem, rfl⟩)
      simp [hnotMem, eq_comm]
    · have hbeq : (name == name') = false := beq_eq_false_iff_ne.mpr hname
      simp [hbeq, hname, lookup_eq_some_iff hrest]

namespace ProperFields

variable {truth? : α → Option Bool} {fs : List (String × Tree α)} (h : ProperFields truth? fs)

include h

theorem field?_iff (name : String) (t : Tree α) :
    (object fs).field? name = some t ↔ (name, t) ∈ fs :=
  lookup_eq_some_iff h.nodup

theorem lastField?_iff (name : String) (t : Tree α) :
    (object fs).lastField? name = some t ↔ (name, t) ∈ fs := by
  have hreverse : (fs.reverse.map (·.1)).Nodup := by
    rw [List.map_reverse]
    exact (List.reverse_perm _).nodup_iff.mpr h.nodup
  rw [lastField?, lookup_eq_some_iff hreverse, List.mem_reverse]

end ProperFields

/-! ### Proper trees -/

variable {truth? : α → Option Bool}

theorem proper_leaf (a : α) : (leaf a).Proper truth? :=
  nofun

theorem mem_fieldObjects {os : List (String × Tree α)} : ∀ {fs : List (String × Tree α)},
    os ∈ fieldObjects fs ↔ ∃ field ∈ fs, os ∈ field.2.objects
  | [] => by simp [fieldObjects]
  | (name, t) :: fs => by
    rw [fieldObjects, List.mem_append, @mem_fieldObjects os fs]
    simp

theorem mem_itemObjects {os : List (String × Tree α)} : ∀ {ts : List (Tree α)},
    os ∈ itemObjects ts ↔ ∃ t ∈ ts, os ∈ objects t
  | [] => by simp [itemObjects]
  | t :: ts => by
    rw [itemObjects, List.mem_append, @mem_itemObjects os ts]
    simp

theorem proper_object {fs : List (String × Tree α)} : (object fs).Proper truth? ↔
    ProperFields truth? fs ∧ ∀ field ∈ fs, field.2.Proper truth? := by
  constructor
  · intro h
    refine ⟨h fs List.mem_cons_self, fun field hfield os hos => ?_⟩
    exact h os (List.mem_cons_of_mem _ (mem_fieldObjects.mpr ⟨field, hfield, hos⟩))
  · rintro ⟨hfs, hinside⟩ os hos
    rcases List.mem_cons.mp hos with rfl | hos
    · exact hfs
    · obtain ⟨field, hfield, hos⟩ := mem_fieldObjects.mp hos
      exact hinside field hfield os hos

theorem proper_array {ts : List (Tree α)} :
    (array ts).Proper truth? ↔ ∀ t ∈ ts, t.Proper truth? := by
  constructor
  · intro h t ht os hos
    exact h os (mem_itemObjects.mpr ⟨t, ht, hos⟩)
  · intro h os hos
    obtain ⟨t, ht, hos⟩ := mem_itemObjects.mp hos
    exact h t ht os hos

theorem proper_tuple {ts : List (Tree α)} :
    (tuple ts).Proper truth? ↔ ∀ t ∈ ts, t.Proper truth? :=
  proper_array

theorem proper_variant {tag : String} {t : Tree α} :
    (variant tag t).Proper truth? ↔ t.Proper truth? :=
  Iff.rfl

/-! ### Trees in the place of leaves -/

section Bind

variable {truth?' : β → Option Bool} {f : α → Tree β}

theorem bindFields_eq_map (f : α → Tree β) : ∀ fs : List (String × Tree α),
    bindFields fs f = fs.map fun field => (field.1, field.2.bind f)
  | [] => rfl
  | (name, t) :: fs => congrArg ((name, t.bind f) :: ·) (bindFields_eq_map f fs)

theorem bindItems_eq_map (f : α → Tree β) : ∀ ts : List (Tree α),
    bindItems ts f = ts.map (·.bind f)
  | [] => rfl
  | t :: ts => congrArg (t.bind f :: ·) (bindItems_eq_map f ts)

variable (hf : ∀ a, (f a).Proper truth?') (htruth : ∀ a, (f a).leaf?.bind truth?' = truth? a)

include htruth in
theorem truth_bind (t : Tree α) : (t.bind f).leaf?.bind truth?' = t.leaf?.bind truth? := by
  cases t with
  | leaf a => exact htruth a
  | object | array | tuple | variant => rfl

include hf htruth

/-- Proper trees in the place of the leaves of a proper tree make a proper tree. -/
theorem Proper.bind {t : Tree α} (h : t.Proper truth?) : (t.bind f).Proper truth?' := by
  induction t using parts_induction with
  | leaf a => exact hf a
  | object fs ih =>
    obtain ⟨hfs, hinside⟩ := proper_object.mp h
    rw [Tree.bind, bindFields_eq_map]
    refine proper_object.mpr ⟨⟨?_, fun name u hu => ?_⟩, List.forall_mem_map.mpr ?_⟩
    · rw [List.map_map]
      exact hfs.nodup
    · obtain ⟨field, hfield, heq⟩ := List.mem_map.mp hu
      cases heq
      rw [truth_bind htruth]
      exact hfs.flags _ _ hfield
    · intro field hfield
      exact ih field hfield (hinside field hfield)
  | array ts ih =>
    rw [Tree.bind, bindItems_eq_map]
    refine proper_array.mpr (List.forall_mem_map.mpr fun t ht => ?_)
    exact ih t ht (proper_array.mp h t ht)
  | tuple ts ih =>
    rw [Tree.bind, bindItems_eq_map]
    refine proper_tuple.mpr (List.forall_mem_map.mpr fun t ht => ?_)
    exact ih t ht (proper_tuple.mp h t ht)
  | variant tag t ih => exact ih h

end Bind

end Tree

/-! ### What a dialect can tell -/

namespace Value

theorem imageFields_eq_map (d : Dialect) : ∀ fs : List (String × Value),
    imageFields d fs = fs.map fun field => (field.1, image d field.2)
  | [] => rfl
  | (name, v) :: fs => congrArg ((name, image d v) :: ·) (imageFields_eq_map d fs)

theorem imageItems_eq_map (d : Dialect) : ∀ vs : List Value, imageItems d vs = vs.map (image d)
  | [] => rfl
  | v :: vs => congrArg (image d v :: ·) (imageItems_eq_map d vs)

theorem exists_object_of_imageItems {d : Dialect} {vs : List Value}
    {gs : List (String × Tree Literal)} (ih : ∀ v ∈ vs, gs ∈ (image d v).objects →
      ∃ fs ∈ v.objects, gs.map (·.1) = fs.map (·.1)) (h : gs ∈ Tree.itemObjects (imageItems d vs)) :
    ∃ fs ∈ Tree.itemObjects vs, gs.map (·.1) = fs.map (·.1) := by
  rw [imageItems_eq_map] at h
  obtain ⟨_, hmem, hgs⟩ := Tree.mem_itemObjects.mp h
  obtain ⟨v, hv, rfl⟩ := List.mem_map.mp hmem
  obtain ⟨fs, hfs, hnames⟩ := ih v hv hgs
  exact ⟨fs, Tree.mem_itemObjects.mpr ⟨v, hv, hfs⟩, hnames⟩

/-- An object that is read back has the names of an object that was written. -/
theorem exists_object_of_image {d : Dialect} {v : Value} {gs : List (String × Tree Literal)}
    (h : gs ∈ (image d v).objects) : ∃ fs ∈ v.objects, gs.map (·.1) = fs.map (·.1) := by
  induction v using Tree.parts_induction with
  | leaf a => cases h
  | object fs ih =>
    rw [image, imageFields_eq_map] at h
    rcases List.mem_cons.mp h with rfl | h
    · exact ⟨fs, List.mem_cons_self, by simp⟩
    · obtain ⟨_, hmem, hgs⟩ := Tree.mem_fieldObjects.mp h
      obtain ⟨field, hfield, rfl⟩ := List.mem_map.mp hmem
      obtain ⟨hs, hhs, hnames⟩ := ih field hfield hgs
      exact ⟨hs, List.mem_cons_of_mem _ (Tree.mem_fieldObjects.mpr ⟨field, hfield, hhs⟩), hnames⟩
  | array vs ih => exact exists_object_of_imageItems ih h
  | tuple vs ih => cases d <;> exact exists_object_of_imageItems ih h
  | variant tag v ih =>
    have hinside : gs ∈ (image d v).objects := by
      cases d with
      | json =>
        obtain ⟨u, hu, hgs⟩ := Tree.mem_itemObjects.mp h
        rcases List.mem_cons.mp hu with rfl | hu
        · cases hgs
        · obtain rfl := List.mem_singleton.mp hu
          exact hgs
      | yojson => exact h
    exact ih hinside

end Value

end SyntaxExport
