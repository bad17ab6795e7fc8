import SyntaxExport.Proofs.Pass.Outline

/-!
# Locations of nodes

Which fields with locations a context has for a node (`Context.spots`), and that these are what stands
in the outline of a site for the pointers that stand there (`Settled.outline`). The fields need not
follow their pointer at once, so they are counted: every layout has as many of each as its pointers
call for, and so has a layout with other layouts in its slots.
-/

namespace SyntaxExport

/-! ### The locations of a context -/

/-- A field with locations. -/
structure Spot where
  owner : NodeRef
  field : String
  locations : List (Option SourceLocation)
  deriving DecidableEq

/-- The field with the range of a node or attribute. -/
def Spot.range (n : NodeRef) (r : SourceRange) : Spot :=
  ⟨n, "source_range", [r.first, r.last]⟩

namespace Context

/-- The locations that a context has for a node: its range, and what the levels of its kind read from
its payload. Types have none, and a sentinel has an absent range. -/
def spots (ctx : Context) (n : NodeRef) : List Spot :=
  match n with
  | .decl id =>
    match ctx.decl? id with
    | none => []
    | some d => .range n d.range :: (NodeKind.lineage d.kind).flatMap fun level =>
      (d.payload.places level).map fun x => ⟨n, x.1, [x.2]⟩
  | .stmt id => (ctx.stmt? id).toList.map fun s => .range n s.range
  | .comment id => (ctx.comment? id).toList.map fun c => .range n c.range
  | .attr id => (ctx.attr? id).toList.map fun a => .range n a.range
  | .sentinel .type => []
  | .sentinel _ => [.range n .absent]
  | .type _ | .temporary _ | .null => []

end Context

/-- The location that stands at a place. -/
def Tree.location? : Tree Item → Option (Option SourceLocation)
  | .leaf (.location loc) => some loc
  | _ => none

namespace Mark

/-- The field that a mark is for. -/
def spots : Mark Item → List Spot
  | .locations (some (.identity n)) field parts => [⟨n, field, parts.filterMap Tree.location?⟩]
  | _ => []

/-- The node or attribute whose pointer a mark is for. -/
def heads : Mark Item → List NodeRef
  | .head (.identity n) => [n]
  | _ => []

end Mark

/-! ### Marks of the context -/

section Balance

variable (ctx : Context)

/-- How often a field is marked, less how often the context has it for the marked pointers. -/
def excess (ms : List (Mark Item)) (x : Spot) : Int :=
  (ms.flatMap Mark.spots).count x - ((ms.flatMap Mark.heads).flatMap ctx.spots).count x

/-- Every mark is in its place, and the marked fields are those that the context has for the marked
pointers. -/
def Settled (ms : List (Mark Item)) : Prop :=
  Tree.Placed ms ∧ ∀ x, excess ctx ms x = 0

theorem excess_append (ms ms' : List (Mark Item)) (x : Spot) :
    excess ctx (ms ++ ms') x = excess ctx ms x + excess ctx ms' x := by
  simp only [excess, List.flatMap_append, List.count_append]
  omega

theorem excess_cons (m : Mark Item) (ms : List (Mark Item)) (x : Spot) :
    excess ctx (m :: ms) x = excess ctx [m] x + excess ctx ms x :=
  excess_append ctx [m] ms x

theorem excess_flatMap {β : Type} {f : β → List (Mark Item)} {g : β → List Spot} {x : Spot}
    (l : List β) (h : ∀ b ∈ l, excess ctx (f b) x = (g b).count x) :
    excess ctx (l.flatMap f) x = (l.flatMap g).count x := by
  induction l with
  | nil => rfl
  | cons b l ih =>
    have hb := h b List.mem_cons_self
    have hl := ih fun c hc => h c (List.mem_cons_of_mem b hc)
    rw [List.flatMap_cons, List.flatMap_cons, excess_append, List.count_append, hb, hl]
    omega

theorem excess_flatMap_marks {f : Mark Item → List (Mark Item)} {x : Spot} (ms : List (Mark Item))
    (h : ∀ m ∈ ms, excess ctx (f m) x = excess ctx [m] x) :
    excess ctx (ms.flatMap f) x = excess ctx ms x := by
  induction ms with
  | nil => rfl
  | cons m ms ih =>
    have hm := h m List.mem_cons_self
    have hms := ih fun m' hm' => h m' (List.mem_cons_of_mem m hm')
    rw [List.flatMap_cons, excess_append, hm, hms, ← excess_cons]

namespace Settled

variable {ctx}

theorem nil : Settled ctx [] :=
  ⟨nofun, fun _ => rfl⟩

theorem append {ms ms' : List (Mark Item)} (h : Settled ctx ms) (h' : Settled ctx ms') :
    Settled ctx (ms ++ ms') := by
  refine ⟨fun m hm => ?_, fun x => ?_⟩
  · rcases List.mem_append.mp hm with hm | hm
    · exact h.1 m hm
    · exact h'.1 m hm
  · rw [excess_append, h.2 x, h'.2 x]
    rfl

theorem flatMap {β : Type} {f : β → List (Mark Item)} {l : List β}
    (h : ∀ b ∈ l, Settled ctx (f b)) : Settled ctx (l.flatMap f) := by
  refine ⟨fun m hm => ?_, fun x => ?_⟩
  · obtain ⟨b, hb, hm⟩ := List.mem_flatMap.mp hm
    exact (h b hb).1 m hm
  · have hexcess := excess_flatMap ctx (x := x) (g := fun _ => []) l fun b hb => (h b hb).2 x
    rw [hexcess, Layout.flatMap_empty]
    rfl

theorem define (s : Site) : Settled ctx [.define s] := by
  refine ⟨fun m hm => ?_, fun _ => rfl⟩
  rw [List.mem_singleton.mp hm]
  exact ⟨s, rfl⟩

theorem defines {β : Type} (f : β → Site) (l : List β) :
    Settled ctx (l.map fun b => .define (f b)) := by
  rw [List.map_eq_flatMap]
  exact flatMap fun b _ => define (f b)

/-- A pointer that the context has no locations for. -/
theorem pointer {n : NodeRef} (h : ctx.spots n = []) :
    Settled ctx [.node (.identity n), .head (.identity n)] := by
  refine ⟨fun m hm => ?_, fun x => ?_⟩
  · rcases List.mem_cons.mp hm with rfl | hm
    · exact ⟨n, rfl⟩
    · rw [List.mem_singleton.mp hm]
      exact ⟨n, rfl⟩
  · simp [excess, Mark.spots, Mark.heads, h]

/-- The pointer of an attribute with its range. -/
theorem head {n : NodeRef} {r : SourceRange} (h : ctx.spots n = [.range n r]) :
    Settled ctx [.head (.identity n), .range (some (.identity n)) r] := by
  refine ⟨fun m hm => ?_, fun x => ?_⟩
  · rcases List.mem_cons.mp hm with rfl | hm
    · exact ⟨n, rfl⟩
    · rw [List.mem_singleton.mp hm]
      exact ⟨⟨n, rfl⟩, by simp⟩
  · simp [excess, Mark.spots, Mark.heads, Mark.range, h, Spot.range, Tree.location?]

/-- The pointer of a node with its range. -/
theorem node {n : NodeRef} {r : SourceRange} (h : ctx.spots n = [.range n r]) :
    Settled ctx [.node (.identity n), .head (.identity n), .range (some (.identity n)) r] := by
  obtain ⟨hplaced, hexcess⟩ := head h
  refine ⟨fun m hm => ?_, fun x => ?_⟩
  · rcases List.mem_cons.mp hm with rfl | hm
    · exact ⟨n, rfl⟩
    · exact hplaced m hm
  · rw [excess_cons, hexcess x]
    rfl

theorem visits (vs : List Visit) : Settled ctx (vs.flatMap Visit.marks) := by
  refine flatMap fun v _ => ?_
  cases v with
  | decl id => exact define _
  | stmt id => exact define _
  | comment id => exact define _
  | type id => exact pointer rfl

theorem attr (id : AttrId) : Settled ctx (Layout.attrMarks ctx id) := by
  cases ha : ctx.attr? id with
  | none =>
    rw [Layout.attrMarks, ha]
    exact nil
  | some a =>
    rw [Layout.attrMarks, ha]
    exact head (by rw [Context.spots, ha]; rfl)

/-! ### Layouts of the context -/

theorem commentNode {n : NodeRef} {c : Comment} (h : ctx.spots n = [.range n c.range]) :
    Settled ctx (Layout.outline none (Layout.commentNode ctx n c)) := by
  rw [Layout.outline_commentNode]
  split
  · exact nil
  · have hchildren : Settled ctx (Layout.commentChildMarks ctx c) := by
      unfold Layout.commentChildMarks
      split
      · exact nil
      · exact defines _ _
    exact (node h).append hchildren

theorem stmtMarks (p : StmtPayload) (level : StmtKind) :
    Settled ctx (Layout.stmtMarks ctx p level) := by
  unfold Layout.stmtMarks
  split
  all_goals try split
  all_goals first
    | exact nil
    | exact defines _ _
    | exact define _
    | exact flatMap fun a _ => attr a

theorem stmtNode {n : NodeRef} {s : Stmt} (h : ctx.spots n = [.range n s.range]) :
    Settled ctx (Layout.outline none (Layout.stmtNode ctx n s)) := by
  rw [Layout.outline_stmtNode]
  split
  · exact nil
  · have hchildren : Settled ctx (Layout.stmtChildMarks ctx s) := by
      unfold Layout.stmtChildMarks
      split
      · exact nil
      · exact defines _ _
    exact ((node h).append hchildren).append (flatMap fun level _ => stmtMarks s.payload level)

theorem childMarks (opts : Options) (d : Decl) : Settled ctx (Layout.childMarks ctx opts d) := by
  unfold Layout.childMarks
  split
  · exact nil
  · exact visits _

theorem typeList (owner : Option Item) :
    Settled ctx (Layout.outline owner (Layout.typeList ctx)) := by
  rw [Layout.outline_typeList]
  refine (flatMap fun t _ => ?_).append (pointer rfl)
  split
  · exact nil
  · exact pointer rfl

/-- Beside its definitions, a level has the locations that it reads. -/
theorem declLevel (opts : Options) (n : NodeRef) (d : Decl) (level : DeclKind) :
    Tree.Placed (Layout.declMarks (some (.identity n)) ctx opts d level) ∧
    ∀ x, excess ctx (Layout.declMarks (some (.identity n)) ctx opts d level) x
      = ((d.payload.places level).map fun place => (⟨n, place.1, [place.2]⟩ : Spot)).count x := by
  have hcontext : Settled ctx (if level ∈ Layout.contextLevels
      then Layout.childMarks ctx opts d else []) := by
    split
    · exact childMarks opts d
    · exact nil
  have htypes : Settled ctx (if level = .translationUnit
      then Layout.outline (some (.identity n)) (Layout.typeList ctx) else []) := by
    split
    · exact typeList _
    · exact nil
  have hdefinitions := (hcontext.append htypes).append (visits (d.payload.definitionsAt level))
  rw [Layout.declMarks, DeclPayload.marks, ← List.append_assoc]
  refine ⟨fun m hm => ?_, fun x => ?_⟩
  · rcases List.mem_append.mp hm with hm | hm
    · exact hdefinitions.1 m hm
    · obtain ⟨place, -, rfl⟩ := List.mem_map.mp hm
      exact ⟨⟨n, rfl⟩, by simp⟩
  · have hspots : ∀ places : List (String × Option SourceLocation),
        excess ctx (places.map fun x => .place (some (.identity n)) x.1 x.2) x
          = (places.map fun place => (⟨n, place.1, [place.2]⟩ : Spot)).count x := by
      intro places
      rw [List.map_eq_flatMap, List.map_eq_flatMap]
      refine excess_flatMap ctx places fun place _ => ?_
      simp [excess, Mark.spots, Mark.heads, Mark.place, Tree.location?]
    rw [excess_append, hdefinitions.2 x, hspots, Int.zero_add]

theorem declNode (opts : Options) {n : NodeRef} {d : Decl}
    (h : ctx.spots n = .range n d.range :: (NodeKind.lineage d.kind).flatMap fun level =>
      (d.payload.places level).map fun place => ⟨n, place.1, [place.2]⟩) :
    Settled ctx (Layout.outline none (Layout.declNode ctx opts n d)) := by
  rw [Layout.outline_declNode]
  split
  · exact nil
  have hattributes : Settled ctx (d.attrs.flatMap (Layout.attrMarks ctx)
      ++ d.fullComment.toList.map fun c => .define (.comment (some c))) :=
    (flatMap fun a _ => attr a).append (defines _ _)
  rw [Layout.outline_declInfo]
  refine ⟨fun m hm => ?_, fun x => ?_⟩
  · simp only [List.cons_append, List.mem_cons, List.append_assoc] at hm
    rcases hm with rfl | rfl | rfl | hm
    · exact ⟨n, rfl⟩
    · exact ⟨n, rfl⟩
    · exact ⟨⟨n, rfl⟩, by simp⟩
    rw [← List.append_assoc] at hm
    rcases List.mem_append.mp hm with hm | hm
    · exact hattributes.1 m hm
    · obtain ⟨level, -, hm⟩ := List.mem_flatMap.mp hm
      exact (declLevel opts n d level).1 m hm
  · have hlevels := excess_flatMap ctx (x := x) (NodeKind.lineage d.kind) fun level _ =>
      (declLevel opts n d level).2 x
    have hhead : excess ctx [.node (.identity n), .head (.identity n),
        .range (some (.identity n)) d.range] x
          = ([Spot.range n d.range].count x : Int) - (ctx.spots n).count x := by
      simp [excess, Mark.spots, Mark.heads, Mark.range, Spot.range, Tree.location?]
    -- the context has the range and the locations of the levels, which stand further on
    have hspots : ((ctx.spots n).count x : Int) = [Spot.range n d.range].count x
        + ((NodeKind.lineage d.kind).flatMap fun level => (d.payload.places level).map
          fun place => (⟨n, place.1, [place.2]⟩ : Spot)).count x := by
      rw [h, ← List.singleton_append, List.count_append]
      rfl
    change excess ctx ([.node (.identity n), .head (.identity n),
      .range (some (.identity n)) d.range] ++ (d.attrs.flatMap (Layout.attrMarks ctx)
        ++ d.fullComment.toList.map fun c => .define (.comment (some c)))
      ++ (NodeKind.lineage d.kind).flatMap (Layout.declMarks (some (.identity n)) ctx opts d)) x = 0
    rw [excess_append, excess_append, hhead, hattributes.2 x, hlevels, hspots]
    omega

theorem layout (opts : Options) (s : Site) :
    Settled ctx (Layout.outline none (s.layout ctx opts)) := by
  unfold Site.layout
  split
  · exact declNode opts (by rfl)
  · split
    · exact nil
    · next hd => exact declNode opts (by rw [Context.spots, hd])
  · exact stmtNode rfl
  · split
    · exact nil
    · next hs => exact stmtNode (by rw [Context.spots, hs]; rfl)
  · exact commentNode rfl
  · split
    · exact nil
    · next hc => exact commentNode (by rw [Context.spots, hc]; rfl)

/-- Locations define nothing. -/
theorem bindItems_locations (define : Site → Tree Item) : ∀ {ps : List (Tree Item)},
    (∀ p ∈ ps, ∃ loc, p = .leaf (.location loc)) → Tree.bindItems ps (Item.expand define) = ps
  | [], _ => rfl
  | p :: ps, h => by
    obtain ⟨loc, rfl⟩ := h p List.mem_cons_self
    rw [Tree.bindItems, bindItems_locations define fun p hp => h p (List.mem_cons_of_mem _ hp)]
    rfl

/-- Marks in the place of the slots that define them leave the balance as it is. -/
theorem expand {define : Site → Tree Item} (hdefine : ∀ s, Settled ctx ((define s).outline none))
    {ms : List (Mark Item)} (h : Settled ctx ms) :
    Settled ctx (ms.flatMap (Mark.expand define)) := by
  -- a mark that is no slot stays what it is, as the parts of a field with locations are leaves
  have hmark : ∀ m ∈ ms, Tree.Placed (Mark.expand define m)
      ∧ ∀ x, excess ctx (Mark.expand define m) x = excess ctx [m] x := by
    intro m hm
    have hplaced := h.1 m hm
    cases m with
    | node a => exact ⟨fun m' hm' => List.mem_singleton.mp hm' ▸ hplaced, fun _ => rfl⟩
    | head a => exact ⟨fun m' hm' => List.mem_singleton.mp hm' ▸ hplaced, fun _ => rfl⟩
    | locations owner field parts =>
      rw [Mark.expand, bindItems_locations define hplaced.2]
      exact ⟨fun m' hm' => List.mem_singleton.mp hm' ▸ hplaced, fun _ => rfl⟩
    | slot a =>
      obtain ⟨s, rfl⟩ := hplaced
      exact ⟨(hdefine s).1, fun x => (hdefine s).2 x⟩
  refine ⟨fun m hm => ?_, fun x =>
    (excess_flatMap_marks ctx ms fun m hm => (hmark m hm).2 x).trans (h.2 x)⟩
  obtain ⟨m₀, hm₀, hm⟩ := List.mem_flatMap.mp hm
  exact (hmark m₀ hm₀).1 m hm

/-- Whatever a site defines, with everything inside it, has the locations that the context has for it. -/
theorem outline (opts : Options) : ∀ (fuel : Nat) (s : Site), Settled ctx (s.outline ctx opts fuel)
  | 0, _ => nil
  | fuel + 1, s => by
    rw [Site.outline_succ]
    exact expand (outline opts fuel) (layout opts s)

end Settled

end Balance

end SyntaxExport
