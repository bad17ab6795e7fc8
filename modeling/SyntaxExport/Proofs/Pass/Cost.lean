import Mathlib.Algebra.Ring.Nat
import SyntaxExport.Proofs.Pass.Balance
import SyntaxExport.Proofs.Pass.Visits

/-!
# The cost of a tree

The cost of a tree bounds the number of calls that its document takes (`Tree.length_le_of_fill`). A
place where a node is defined has the cost of an absent node, so the cost of an expanded tree is at most
its own cost with that of the nodes that are defined inside it (`Tree.cost_bind_le`). These are among
the nodes that the context has there, so the cost goes down along a walk (`Site.cost_tree_succ_le`).
-/

namespace SyntaxExport

/-- The number of calls that a leaf leads to at most: a location has three fields, and an absent node
has no parts besides its first level. -/
def Item.cost : Item → Nat
  | .location _ => 8
  | .define _ => 30
  | .fault _ => 0
  | _ => 1

/-- The number of calls that a token leads to at most. -/
def Token.cost : Token Item → Nat
  | .leaf a => a.cost
  | _ => 1

namespace Tree

/-- The number of calls that a tree leads to at most. -/
def cost (t : Tree Item) : Nat :=
  (t.tokens.map Token.cost).sum

/-- The cost of the fields of an object. -/
def fieldCost (fs : List (String × Tree Item)) : Nat :=
  (fs.map fun field => 1 + field.2.cost).sum

/-- The cost of the elements of an array or tuple. -/
def itemCost (ts : List (Tree Item)) : Nat :=
  (ts.map cost).sum

/-! ### Containers -/

theorem fieldCost_cons (name : String) (t : Tree Item) (fs : List (String × Tree Item)) :
    fieldCost ((name, t) :: fs) = 1 + t.cost + fieldCost fs := rfl

theorem itemCost_cons (t : Tree Item) (ts : List (Tree Item)) :
    itemCost (t :: ts) = t.cost + itemCost ts := rfl

@[simp] theorem cost_leaf (a : Item) : (leaf a).cost = a.cost :=
  Nat.add_zero _

theorem cost_fieldTokens (rest : List (Token Item)) : ∀ fs : List (String × Tree Item),
    ((fieldTokens fs rest).map Token.cost).sum = fieldCost fs + (rest.map Token.cost).sum
  | [] => (Nat.zero_add _).symm
  | (name, t) :: fs => by
    have ih := cost_fieldTokens rest fs
    have htag : Token.cost (.tag name) = 1 := rfl
    rw [fieldTokens, tokensAppend_eq_append, List.map_cons, List.sum_cons, List.map_append,
      List.sum_append, ih, htag, fieldCost_cons, cost]
    omega

theorem cost_itemTokens (rest : List (Token Item)) : ∀ ts : List (Tree Item),
    ((itemTokens ts rest).map Token.cost).sum = itemCost ts + (rest.map Token.cost).sum
  | [] => (Nat.zero_add _).symm
  | t :: ts => by
    have ih := cost_itemTokens rest ts
    rw [itemTokens, tokensAppend_eq_append, List.map_append, List.sum_append, ih, itemCost_cons, cost]
    omega

@[simp] theorem cost_object (fs : List (String × Tree Item)) :
    (object fs).cost = 2 + fieldCost fs := by
  have hfields := cost_fieldTokens [.close] fs
  have hclose : ([.close].map Token.cost).sum = 1 := rfl
  have hopen : (object fs).cost = 1 + ((fieldTokens fs [.close]).map Token.cost).sum := rfl
  omega

@[simp] theorem cost_array (ts : List (Tree Item)) : (array ts).cost = 2 + itemCost ts := by
  have hitems := cost_itemTokens [.close] ts
  have hclose : ([.close].map Token.cost).sum = 1 := rfl
  have hopen : (array ts).cost = 1 + ((itemTokens ts [.close]).map Token.cost).sum := rfl
  omega

@[simp] theorem cost_tuple (ts : List (Tree Item)) : (tuple ts).cost = 2 + itemCost ts :=
  cost_array ts

@[simp] theorem cost_variant (tag : String) (t : Tree Item) : (variant tag t).cost = 2 + t.cost := by
  have hclose : ([.close].map Token.cost).sum = 1 := rfl
  have hopen : (variant tag t).cost = 1 + ((t.tokensAppend [.close]).map Token.cost).sum := rfl
  rw [tokensAppend_eq_append, List.map_append, List.sum_append, hclose] at hopen
  rw [hopen, cost]
  omega

/-! ### Filled trees -/

variable {ctx : Context} {opts : Options}

theorem length_le_of_fill_leaf {a : Item} {s s' : Slots} {v : Value}
    (h : a.fill ctx opts s = .ok (v, s')) : v.tokens.length ≤ a.cost := by
  cases a with
  | scalar x =>
    cases h
    exact Nat.le_refl 1
  | identity n =>
    cases h
    exact Nat.le_refl 1
  | location loc =>
    obtain ⟨hv, -⟩ := fill_location h
    obtain ⟨fs, rfl, hcount, -⟩ := Pass.exists_scalarFields (σ := Recorder) hv
    have hlength : fs.length ≤ 3 := by
      rw [← hcount]
      cases s.cursor.delta loc <;> simp [LocationDelta.fieldCount]
    have hfields : ∀ fs : List (String × Scalar),
        (fs.flatMap fun f => ([.tag f.1, .leaf f.2] : List Call)).length = 2 * fs.length := by
      intro fs
      induction fs with
      | nil => rfl
      | cons f fs ih =>
        rw [List.flatMap_cons, List.length_append, ih, List.length_cons]
        exact Nat.add_comm 2 _
    have htokens := Pass.fieldTokens_scalarFields [.close] fs
    rw [tokens, tokensAppend, htokens, List.length_cons, List.length_append, hfields]
    change 2 * fs.length + 1 + 1 ≤ 8
    omega
  | define s => cases h
  | fault e => cases h

theorem length_le_of_fillTokens : ∀ {ts : List (Token Item)} {s s' : Slots} {calls : List Call},
    fillTokens ctx opts ts s = .ok (calls, s') → calls.length ≤ (ts.map Token.cost).sum
  | [], _, _, _, h => by
    cases h
    exact Nat.le_refl 0
  | t :: ts, s, s', calls, h => by
    rw [fillTokens] at h
    split at h
    · cases h
    · next front s₁ hfront =>
      split at h
      · cases h
      · next rest s₂ hrest =>
        cases h
        have ih := length_le_of_fillTokens hrest
        have hlength : front.length ≤ t.cost := by
          cases t with
          | container | variant | close | tag =>
            cases hfront
            exact Nat.le_refl 1
          | leaf a =>
            rw [Token.fill] at hfront
            split at hfront
            · cases hfront
            · next hfill =>
              cases hfront
              exact length_le_of_fill_leaf hfill
        rw [List.length_append, List.map_cons, List.sum_cons]
        omega

/-- The document of a tree has at most as many calls as the tree costs. -/
theorem length_le_of_fill {t : Tree Item} {s s' : Slots} {v : Value}
    (h : t.fill ctx opts s = .ok (v, s')) : v.tokens.length ≤ t.cost := by
  have htokens : fillTokens ctx opts t.tokens s = .ok (v.tokens, s') := by
    rw [fillTokens_tokens, h]
    rfl
  exact length_le_of_fillTokens htokens

end Tree

/-! ### Expanded trees -/

/-- The cost of what is defined at a mark, if it is present. -/
def Mark.cost (define : Site → Tree Item) : Mark Item → Nat
  | .slot (.define s) => if s.node.isPlaceholder then 0 else (define s).cost
  | _ => 0

/-- The cost of what is defined at marks. -/
def markCost (define : Site → Tree Item) (ms : List (Mark Item)) : Nat :=
  (ms.map (Mark.cost define)).sum

theorem markCost_append (define : Site → Tree Item) (ms ms' : List (Mark Item)) :
    markCost define (ms ++ ms') = markCost define ms + markCost define ms' := by
  rw [markCost, List.map_append, List.sum_append, markCost, markCost]

namespace Tree

/-- Locations define nothing. -/
theorem bind_of_locations {t : Tree Item} {define : Site → Tree Item}
    (h : ∀ p ∈ t.parts, ∃ loc, p = .leaf (.location loc)) : t.bind (Item.expand define) = t := by
  cases t with
  | tuple ts =>
    have hitems : ∀ {ts : List (Tree Item)}, (∀ p ∈ ts, ∃ loc, p = .leaf (.location loc)) →
        bindItems ts (Item.expand define) = ts := by
      intro ts
      induction ts with
      | nil => exact fun _ => rfl
      | cons t ts ih =>
        intro hts
        obtain ⟨loc, rfl⟩ := hts _ List.mem_cons_self
        rw [bindItems, ih fun p hp => hts p (List.mem_cons_of_mem _ hp)]
        rfl
    exact congrArg tuple (hitems h)
  | leaf a =>
    obtain ⟨loc, hloc⟩ := h _ (List.mem_singleton.mpr rfl)
    cases hloc
    rfl
  | object | array | variant =>
    obtain ⟨loc, hloc⟩ := h _ (List.mem_singleton.mpr rfl)
    cases hloc

variable {define : Site → Tree Item}

mutual

/-- An expanded tree costs at most what the tree costs with what is defined at its marks. -/
theorem cost_bind_le (hdefine : ∀ s, s.node.isPlaceholder → (define s).cost ≤ 30) :
    ∀ {t : Tree Item} {owner : Option Item}, Placed (t.outline owner) →
      (t.bind (Item.expand define)).cost ≤ t.cost + markCost define (t.outline owner)
  | .leaf (.define s), _, _ => by
    have habsent := hdefine s
    have hmark : markCost define [.slot (.define s)]
        = if s.node.isPlaceholder then 0 else (define s).cost := Nat.add_zero _
    change (define s).cost ≤ 30 + markCost define [.slot (.define s)]
    rw [hmark]
    split
    · next h => exact habsent h
    · omega
  | .leaf (.scalar _), _, _ => Nat.le_add_right _ _
  | .leaf (.identity _), _, _ => Nat.le_add_right _ _
  | .leaf (.location _), _, _ => Nat.le_add_right _ _
  | .leaf (.fault _), _, _ => Nat.le_add_right _ _
  | .object fs, owner, h => by
    have ih := fieldCost_bind_le hdefine (placed_append h).2
    rw [bind, cost_object, cost_object, outline, markCost_append]
    omega
  | .array ts, owner, h => by
    have hitems : Placed (outlineItems owner ts) := h
    have ih := itemCost_bind_le hdefine hitems
    rw [bind, cost_array, cost_array, outline]
    omega
  | .tuple ts, owner, h => by
    have ih := itemCost_bind_le hdefine (placed_append h).2
    rw [bind, cost_tuple, cost_tuple, outline, markCost_append]
    omega
  | .variant tag t, owner, h => by
    have hargument : Placed (t.outline owner) := h
    have ih := cost_bind_le hdefine hargument
    rw [bind, cost_variant, cost_variant, outline]
    omega

theorem fieldCost_bind_le (hdefine : ∀ s, s.node.isPlaceholder → (define s).cost ≤ 30) :
    ∀ {fs : List (String × Tree Item)} {owner : Option Item}, Placed (outlineFields owner fs) →
      fieldCost (bindFields fs (Item.expand define))
        ≤ fieldCost fs + markCost define (outlineFields owner fs)
  | [], _, _ => Nat.le_refl 0
  | (name, t) :: fs, owner, h => by
    obtain ⟨hfirst, hfs⟩ := placed_append h
    have ih := fieldCost_bind_le hdefine hfs
    rw [bindFields, outlineFields, markCost_append, fieldCost_cons, fieldCost_cons]
    split at hfirst
    · obtain ⟨-, hparts⟩ := hfirst _ (List.mem_singleton.mpr rfl)
      rw [bind_of_locations hparts]
      omega
    · next hname =>
      have ht := cost_bind_le hdefine hfirst
      rw [if_neg hname]
      omega

theorem itemCost_bind_le (hdefine : ∀ s, s.node.isPlaceholder → (define s).cost ≤ 30) :
    ∀ {ts : List (Tree Item)} {owner : Option Item}, Placed (outlineItems owner ts) →
      itemCost (bindItems ts (Item.expand define))
        ≤ itemCost ts + markCost define (outlineItems owner ts)
  | [], _, _ => Nat.le_refl 0
  | t :: ts, owner, h => by
    obtain ⟨hfirst, hts⟩ := placed_append h
    have ih := itemCost_bind_le hdefine hts
    have ht := cost_bind_le hdefine hfirst
    rw [bindItems, outlineItems, markCost_append, itemCost_cons, itemCost_cons]
    omega

end

end Tree

/-! ### Sites -/

/-- The cost of what is defined where a node is visited; types are defined in place. -/
def Visit.cost (define : Site → Tree Item) (v : Visit) : Nat :=
  markCost define v.marks

/-- Marks that list nodes cost what the nodes cost. -/
theorem markCost_of_lists {define : Site → Tree Item} {ms : List (Mark Item)} {vs : List Visit}
    (h : Mark.Lists ms vs) : markCost define ms = (vs.map (Visit.cost define)).sum := by
  induction h with
  | nil => rfl
  | visit v _ ih => rw [markCost_append, ih, List.map_cons, List.sum_cons, Visit.cost]
  | @silent m ms vs hm _ ih =>
    have hsilent : Mark.cost define m = 0 := by
      cases hm <;> rfl
    rw [← ih, markCost, List.map_cons, List.sum_cons, hsilent, Nat.zero_add, markCost]

end SyntaxExport
