import SyntaxExport.Proofs.Layout.Distinct
import SyntaxExport.Proofs.Visits

/-!
# Objects without duplicate fields

Expanding the slots of a proper layout and filling them leaves its objects proper: the trees of sites
are nodes, and a location is an object of its own. So an object of a document that was written has every
field once, and a reader that keeps objects as maps finds all of them (`Session.objects_proper`).
-/

namespace SyntaxExport

/-! ### Expanded layouts -/

namespace Site

variable (ctx : Context) (opts : Options)

theorem proper_tree : ∀ (fuel : Nat) (s : Site), (s.tree ctx opts fuel).Proper Item.boolean?
      ∧ (s.tree ctx opts fuel).leaf?.bind Item.boolean? = none
  | 0, _ => ⟨Tree.proper_leaf _, rfl⟩
  | fuel + 1, s => by
    have hproper : ∀ a : Item, (a.expand (tree ctx opts fuel)).Proper Item.boolean? := by
      intro a
      cases a with
      | define s => exact (proper_tree fuel s).1
      | scalar | identity | location | fault => exact Tree.proper_leaf _
    have htruth : ∀ a : Item,
        (a.expand (tree ctx opts fuel)).leaf?.bind Item.boolean? = a.boolean? := by
      intro a
      cases a with
      | define s => exact (proper_tree fuel s).2
      | scalar | identity | location | fault => rfl
    refine ⟨(s.proper_layout ctx opts).bind hproper htruth, ?_⟩
    exact (Tree.truth_bind htruth _).trans (s.boolean?_layout ctx opts)

end Site

/-! ### Filled slots -/

namespace Tree

variable {ctx : Context} {opts : Options}

/-- A relative location has the fields that have changed, and none of them is a flag. -/
theorem proper_delta {paths : PathRule} {delta : LocationDelta} {v : Value}
    (h : delta.value ctx paths = .ok v) : v.Proper Scalar.boolean? ∧ v.leaf? = none := by
  have hcolumn : flagValue? "column" = none := by decide
  have hline : flagValue? "line" = none := by decide
  have hfile : flagValue? "file" = none := by decide
  have hobject : ∀ fs : List (String × Value), (fs.map (·.1)).Nodup →
      (∀ field ∈ fs, (∃ x, field.2 = .leaf x ∧ x.boolean? = none) ∧ flagValue? field.1 = none) →
      (Tree.object fs).Proper Scalar.boolean? := by
    intro fs hnames hfields
    refine proper_object.mpr ⟨⟨hnames, fun name t ht => ?_⟩, fun field hfield => ?_⟩
    · obtain ⟨⟨x, rfl, hx⟩, hname⟩ := hfields _ ht
      exact hx.trans hname.symm
    · obtain ⟨⟨x, hleaf, -⟩, -⟩ := hfields _ hfield
      rw [hleaf]
      exact proper_leaf x
  cases delta with
  | absent =>
    cases h
    exact ⟨hobject [] List.nodup_nil nofun, rfl⟩
  | column c =>
    cases h
    exact ⟨hobject _ (by simp) (by simp [hcolumn, Scalar.boolean?]), rfl⟩
  | line l c =>
    cases h
    exact ⟨hobject _ (by simp) (by simp [hcolumn, hline, Scalar.boolean?]), rfl⟩
  | file f l c =>
    rw [LocationDelta.value] at h
    split at h
    · cases h
    · cases h
      exact ⟨hobject _ (by simp) (by simp [hcolumn, hline, hfile, Scalar.boolean?]), rfl⟩

theorem proper_of_fill_leaf {a : Item} {s s' : Slots} {v : Value}
    (h : a.fill ctx opts s = .ok (v, s')) :
    v.Proper Scalar.boolean? ∧ v.leaf?.bind Scalar.boolean? = a.boolean? := by
  cases a with
  | scalar x =>
    cases h
    exact ⟨proper_leaf _, rfl⟩
  | identity n =>
    cases h
    exact ⟨proper_leaf _, rfl⟩
  | location loc =>
    obtain ⟨hv, -⟩ := fill_location h
    obtain ⟨hproper, hleaf⟩ := proper_delta hv
    refine ⟨hproper, ?_⟩
    rw [hleaf]
    rfl
  | define s => cases h
  | fault e => cases h

/-- The fields of a filled object are the filled fields. -/
theorem of_fillFields : ∀ {fs : List (String × Tree Item)} {s s' : Slots}
    {gs : List (String × Value)}, fillFields ctx opts fs s = .ok (gs, s') →
    gs.map (·.1) = fs.map (·.1) ∧ ∀ field ∈ gs, ∃ t s₁ s₂, (field.1, t) ∈ fs ∧
      t.fill ctx opts s₁ = .ok (field.2, s₂) := by
  intro fs
  induction fs with
  | nil =>
    intro s s' gs h
    cases h
    exact ⟨rfl, fun field hfield => absurd hfield List.not_mem_nil⟩
  | cons first fs ih =>
    intro s s' gs h
    obtain ⟨name, t⟩ := first
    obtain ⟨v, s₁, hs, ht, hfs, rfl⟩ := of_fillFields_cons h
    obtain ⟨hnames, hfields⟩ := ih hfs
    refine ⟨congrArg (name :: ·) hnames, List.forall_mem_cons.mpr ⟨?_, fun field hfield => ?_⟩⟩
    · exact ⟨t, s, s₁, List.mem_cons_self, ht⟩
    · obtain ⟨u, s₂, s₃, hu, hfill⟩ := hfields field hfield
      exact ⟨u, s₂, s₃, List.mem_cons_of_mem _ hu, hfill⟩

theorem of_fillItems : ∀ {ts : List (Tree Item)} {s s' : Slots} {vs : List Value},
    fillItems ctx opts ts s = .ok (vs, s') →
    ∀ v ∈ vs, ∃ t ∈ ts, ∃ s₁ s₂, t.fill ctx opts s₁ = .ok (v, s₂) := by
  intro ts
  induction ts with
  | nil =>
    intro s s' vs h
    cases h
    exact fun v hv => absurd hv List.not_mem_nil
  | cons t ts ih =>
    intro s s' vs h
    obtain ⟨v, s₁, us, ht, hts, rfl⟩ := of_fillItems_cons h
    refine List.forall_mem_cons.mpr ⟨⟨t, List.mem_cons_self, s, s₁, ht⟩, fun u hu => ?_⟩
    obtain ⟨t', ht', hfill⟩ := ih hts u hu
    exact ⟨t', List.mem_cons_of_mem _ ht', hfill⟩

theorem truth_of_fill {t : Tree Item} {s s' : Slots} {v : Value}
    (h : t.fill ctx opts s = .ok (v, s')) :
    v.leaf?.bind Scalar.boolean? = t.leaf?.bind Item.boolean? := by
  cases t with
  | leaf a => exact (proper_of_fill_leaf h).2
  | object fs =>
    obtain ⟨gs, -, rfl⟩ := of_fill_object h
    rfl
  | array ts =>
    obtain ⟨vs, -, rfl⟩ := of_fill_array h
    rfl
  | tuple ts =>
    obtain ⟨vs, -, rfl⟩ := of_fill_tuple h
    rfl
  | variant tag t =>
    obtain ⟨u, -, rfl⟩ := of_fill_variant h
    rfl

/-- Filling its slots leaves a tree proper. -/
theorem Proper.fill {t : Tree Item} (hproper : t.Proper Item.boolean?) {s s' : Slots} {v : Value}
    (h : t.fill ctx opts s = .ok (v, s')) : v.Proper Scalar.boolean? := by
  induction t using parts_induction generalizing s s' v with
  | leaf a => exact (proper_of_fill_leaf h).1
  | object fs ih =>
    obtain ⟨gs, hgs, rfl⟩ := of_fill_object h
    obtain ⟨hnames, hfields⟩ := of_fillFields hgs
    obtain ⟨⟨hnodup, hflags⟩, hinside⟩ := proper_object.mp hproper
    refine proper_object.mpr ⟨⟨?_, fun name u hu => ?_⟩, fun field hfield => ?_⟩
    · rw [hnames]
      exact hnodup
    · obtain ⟨t, s₁, s₂, ht, hfill⟩ := hfields _ hu
      exact (truth_of_fill hfill).trans (hflags name t ht)
    · obtain ⟨t, s₁, s₂, ht, hfill⟩ := hfields field hfield
      exact ih _ ht (hinside _ ht) hfill
  | array ts ih =>
    obtain ⟨vs, hvs, rfl⟩ := of_fill_array h
    refine proper_array.mpr fun u hu => ?_
    obtain ⟨t, ht, s₁, s₂, hfill⟩ := of_fillItems hvs u hu
    exact ih t ht (proper_array.mp hproper t ht) hfill
  | tuple ts ih =>
    obtain ⟨vs, hvs, rfl⟩ := of_fill_tuple h
    refine proper_tuple.mpr fun u hu => ?_
    obtain ⟨t, ht, s₁, s₂, hfill⟩ := of_fillItems hvs u hu
    exact ih t ht (proper_tuple.mp hproper t ht) hfill
  | variant tag t ih =>
    obtain ⟨u, hu, rfl⟩ := of_fill_variant h
    have hinside : u.Proper Scalar.boolean? := ih hproper hu
    exact hinside

end Tree

/-! ### Sessions -/

namespace Session

/-- Every object of a document that was written, at any depth, has fields with different names. So a
field is found by its name, whether a reader keeps the first or the last one, and nothing else is; the
same names stand in the text of the document in either dialect. The booleans among the fields are the
flags that hold: a field that is a flag is `true`, and no other field is a boolean. -/
theorem objects_proper {ctx : Context} {root : DeclId} {opts : Options} {s s' : Session}
    {r : Recorder} (h : s.write ctx root opts ({} : Recorder) = (.ok (), s', r)) :
    ∃ v : Value, r.document? = some v ∧
      (∀ fs ∈ v.objects, (fs.map (·.1)).Nodup ∧
        ∀ name u, ((Tree.object fs).field? name = some u ↔ (name, u) ∈ fs) ∧
          ((Tree.object fs).lastField? name = some u ↔ (name, u) ∈ fs) ∧
          ((name, u) ∈ fs → Value.boolean? u = if name ∈ flagNames then some true else none)) ∧
      ∀ d : Dialect, ∀ gs ∈ (v.image d).objects, (gs.map (·.1)).Nodup := by
  obtain ⟨v, hfill, hv⟩ := document?_of_write h
  have htree := (Site.proper_tree ctx opts ctx.nestingBound (.decl (some root))).1
  have hproper := htree.fill hfill
  refine ⟨v, hv, fun fs hfs => ⟨(hproper fs hfs).nodup, fun name u => ?_⟩, fun d gs hgs => ?_⟩
  · have hfields := hproper fs hfs
    refine ⟨hfields.field?_iff name u, hfields.lastField?_iff name u, fun hu => ?_⟩
    have htruth : Value.boolean? u = u.leaf?.bind Scalar.boolean? := by
      cases u with
      | leaf x => cases x <;> rfl
      | object | array | tuple | variant => rfl
    exact htruth.trans (hfields.flags name u hu)
  · obtain ⟨fs, hfs, hnames⟩ := Value.exists_object_of_image hgs
    rw [hnames]
    exact (hproper fs hfs).nodup

/-- The objects of the document of a function. -/
theorem objects_proper_functionUnit : ∃ (s' : Session) (r : Recorder) (v : Value),
    ({} : Session).write functionUnit ⟨0⟩ { identityMode := .raw } ({} : Recorder) = (.ok (), s', r) ∧
    r.document? = some v ∧ ∀ fs ∈ v.objects, (fs.map (·.1)).Nodup := by
  obtain ⟨s', r, h⟩ := exists_write_functionUnit
  obtain ⟨v, hv, hobjects, -⟩ := objects_proper h
  exact ⟨s', r, v, h, hv, fun fs hfs => (hobjects fs hfs).1⟩

end Session

end SyntaxExport
