import SyntaxExport.Proofs.Layout.Tokens
import SyntaxExport.Proofs.Padding.Layout
import SyntaxExport.Proofs.Pass.Nesting
import SyntaxExport.Proofs.Recording
import SyntaxExport.Proofs.Visits

/-!
# Documents with new nodes for absent ones

A document has a node in the place of every absent one. It is the document that the context has with new
nodes in the absent slots, but for the pointers with which these nodes begin (`Session.write_paddedInto`).
So no reader needs to care whether a slot was absent, as long as it takes these pointers for names.
-/

namespace SyntaxExport

/-! ### Lists with replaced parts -/

/-- Two lists that are the same outside of parts that `P` relates. -/
inductive SameOutside {α : Type} (P : List α → List α → Prop) : List α → List α → Prop where
  | nil : SameOutside P [] []
  | same (a : α) {as bs : List α} (h : SameOutside P as bs) : SameOutside P (a :: as) (a :: bs)
  | part {ps qs as bs : List α} (hpart : P ps qs) (h : SameOutside P as bs) :
    SameOutside P (ps ++ as) (qs ++ bs)

namespace SameOutside

variable {α β : Type} {P : List α → List α → Prop} {as bs cs ds : List α}

theorem refl : ∀ as : List α, SameOutside P as as
  | [] => .nil
  | a :: as => .same a (refl as)

theorem append (h : SameOutside P as bs) (h' : SameOutside P cs ds) :
    SameOutside P (as ++ cs) (bs ++ ds) := by
  induction h with
  | nil => exact h'
  | same a _ ih => exact .same a ih
  | part hpart _ ih =>
    rw [List.append_assoc, List.append_assoc]
    exact .part hpart ih

theorem map {Q : List β → List β → Prop} {f : α → β}
    (hf : ∀ {ps qs}, P ps qs → Q (ps.map f) (qs.map f)) (h : SameOutside P as bs) :
    SameOutside Q (as.map f) (bs.map f) := by
  induction h with
  | nil => exact .nil
  | same a _ ih => exact .same (f a) ih
  | part hpart _ ih =>
    rw [List.map_append, List.map_append]
    exact .part (hf hpart) ih

end SameOutside

/-! ### Beginnings of nodes -/

/-- The tokens with which a node of kind `k` begins, up to its pointer. -/
def Token.opening {κ α : Type} [NodeKind κ] (k : κ) (fields : Nat) (pointer : α) : List (Token α) :=
  [.variant (NodeKind.tag k), .container .tuple (NodeKind.tupleSize k), .container .object fields,
    .tag "pointer", .leaf pointer]

/-- The beginning of a node that is written in the place of an absent one, and that of a new node of
`ctx'`. -/
inductive Token.Replaces (ctx ctx' : Context) {α : Type} (pointer : NodeRef → α) :
    List (Token α) → List (Token α) → Prop where
  | decl {id : DeclId} (h : ctx.NewDecl ctx' id) :
    Replaces ctx ctx' pointer (opening DeclKind.empty 3 (pointer (.sentinel .decl)))
      (opening DeclKind.empty 3 (pointer (.decl id)))
  | stmt {id : StmtId} (h : ctx.NewStmt ctx' id) :
    Replaces ctx ctx' pointer (opening StmtKind.nullStmt 2 (pointer (.sentinel .stmt)))
      (opening StmtKind.nullStmt 2 (pointer (.stmt id)))
  | comment {id : CommentId} (h : ctx.NewComment ctx' id) :
    Replaces ctx ctx' pointer (opening CommentKind.noComment 2 (pointer (.sentinel .comment)))
      (opening CommentKind.noComment 2 (pointer (.comment id)))

/-! ### Trees -/

namespace Layout

/-- After its pointer, the node in the place of an absent one is the same wherever it stands. -/
theorem tokens_sentinelDecl : ∃ rest : List (Token Item), (∀ t ∈ rest, t.isDefine = false) ∧
    ∀ ctx opts n, (declNode ctx opts n sentinelDecl).tree.tokens
      = Token.opening DeclKind.empty 3 (.identity n) ++ rest := by
  refine ⟨[.tag "source_range", .container .tuple 2, .leaf (.location none), .leaf (.location none),
    .close, .tag "attributes", .container .array 0, .close, .close, .close, .close], by decide, ?_⟩
  intro ctx opts n
  rw [declNode_sentinel]
  rfl

theorem tokens_sentinelStmt : ∃ rest : List (Token Item), (∀ t ∈ rest, t.isDefine = false) ∧
    ∀ ctx n, (stmtNode ctx n sentinelStmt).tree.tokens
      = Token.opening StmtKind.nullStmt 2 (.identity n) ++ rest := by
  refine ⟨[.tag "source_range", .container .tuple 2, .leaf (.location none), .leaf (.location none),
    .close, .close, .container .array 0, .close, .close, .close], by decide, ?_⟩
  intro ctx n
  rw [stmtNode_sentinel]
  rfl

theorem tokens_sentinelComment : ∃ rest : List (Token Item), (∀ t ∈ rest, t.isDefine = false) ∧
    ∀ ctx n, (commentNode ctx n sentinelComment).tree.tokens
      = Token.opening CommentKind.noComment 2 (.identity n) ++ rest := by
  refine ⟨[.tag "source_range", .container .tuple 2, .leaf (.location none), .leaf (.location none),
    .close, .close, .container .array 0, .close, .close, .close], by decide, ?_⟩
  intro ctx n
  rw [commentNode_sentinel]
  rfl

end Layout

variable {ctx ctx' : Context} {opts : Options}

theorem Tree.expandToken_of_isDefine (f : Site → Tree Item) {t : Token Item}
    (h : t.isDefine = false) : expandToken (Item.expand f) t = [t] := by
  cases t with
  | container | variant | close | tag => rfl
  | leaf a =>
    cases a with
    | scalar | identity | location | fault => rfl
    | define s => cases h

theorem Tree.flatMap_expandToken (f : Site → Tree Item) {ts : List (Token Item)}
    (h : ∀ t ∈ ts, t.isDefine = false) : ts.flatMap (expandToken (Item.expand f)) = ts := by
  rw [List.flatMap_congr fun t ht => expandToken_of_isDefine f (h t ht), List.flatMap_singleton']

namespace Site

/-- A node that is written in the place of an absent one defines nothing else. -/
theorem tokens_tree_of_opening {s : Site} {fuel : Nat} {κ : Type} [NodeKind κ] {k : κ} {fields : Nat}
    {n : NodeRef} {rest : List (Token Item)} (hrest : ∀ t ∈ rest, t.isDefine = false)
    (h : (s.layout ctx opts).tree.tokens = Token.opening k fields (.identity n) ++ rest) :
    (s.tree ctx opts (fuel + 1)).tokens = Token.opening k fields (.identity n) ++ rest := by
  rw [tokens_tree_succ, h]
  refine Tree.flatMap_expandToken _ fun t ht => ?_
  rcases List.mem_append.mp ht with hopening | ht
  · simp only [Token.opening, List.mem_cons, List.not_mem_nil, or_false] at hopening
    rcases hopening with rfl | rfl | rfl | rfl | rfl <;> rfl
  · exact hrest t ht

/-- Two nodes that differ in their beginnings alone, and define nothing else. -/
theorem sameOutside_of_opening {s s' : Site} {fuel : Nat} {κ : Type} [NodeKind κ] {k : κ}
    {fields : Nat} {n n' : NodeRef} {rest : List (Token Item)} (hrest : ∀ t ∈ rest, t.isDefine = false)
    (hs : (s.layout ctx opts).tree.tokens = Token.opening k fields (.identity n) ++ rest)
    (hs' : (s'.layout ctx' opts).tree.tokens = Token.opening k fields (.identity n') ++ rest)
    (hpart : Token.Replaces ctx ctx' Item.identity (Token.opening k fields (.identity n))
      (Token.opening k fields (.identity n'))) :
    SameOutside (Token.Replaces ctx ctx' Item.identity) (s.tree ctx opts (fuel + 1)).tokens
      (s'.tree ctx' opts (fuel + 1)).tokens := by
  rw [tokens_tree_of_opening hrest hs, tokens_tree_of_opening hrest hs']
  exact .part hpart (.refl rest)

/-- A new node and the one that is written in its place differ in their beginnings alone. -/
theorem sameOutside_of_absent {s s' : Site} (hs : s.PaddedInto ctx ctx' s') (habsent : s.visit? = none)
    (fuel : Nat) : SameOutside (Token.Replaces ctx ctx' Item.identity)
      (s.tree ctx opts (fuel + 1)).tokens (s'.tree ctx' opts (fuel + 1)).tokens := by
  cases hs with
  | decl ho =>
    cases ho with
    | held id => cases habsent
    | @absent id hnew =>
      obtain ⟨rest, hrest, htokens⟩ := Layout.tokens_sentinelDecl
      refine sameOutside_of_opening hrest ?_ ?_ (.decl hnew)
      · rw [layout]
        exact htokens ctx opts _
      · rw [layout, hnew.2]
        exact htokens ctx' opts _
  | stmt ho =>
    cases ho with
    | held id => cases habsent
    | @absent id hnew =>
      obtain ⟨rest, hrest, htokens⟩ := Layout.tokens_sentinelStmt
      refine sameOutside_of_opening hrest ?_ ?_ (.stmt hnew)
      · rw [layout]
        exact htokens ctx _
      · rw [layout, hnew.2]
        exact htokens ctx' _
  | comment ho =>
    cases ho with
    | held id => cases habsent
    | @absent id hnew =>
      obtain ⟨rest, hrest, htokens⟩ := Layout.tokens_sentinelComment
      refine sameOutside_of_opening hrest ?_ ?_ (.comment hnew)
      · rw [layout]
        exact htokens ctx _
      · rw [layout, hnew.2]
        exact htokens ctx' _

/-- Padded tokens expand to tokens that are the same outside of beginnings, if their sites do. -/
theorem sameOutside_expand {f f' : Site → Tree Item} {ts ts' : List (Token Item)}
    (hts : List.Forall₂ (Token.PaddedInto ctx ctx') ts ts')
    (hsites : ∀ {u u'}, .leaf (.define u) ∈ ts → u.PaddedInto ctx ctx' u' →
      SameOutside (Token.Replaces ctx ctx' Item.identity) (f u).tokens (f' u').tokens) :
    SameOutside (Token.Replaces ctx ctx' Item.identity)
      (ts.flatMap (Tree.expandToken (Item.expand f)))
      (ts'.flatMap (Tree.expandToken (Item.expand f'))) := by
  induction hts with
  | nil => exact .nil
  | @cons t t' ts ts' ht _ ih =>
    have hrest := ih fun hu => hsites (List.mem_cons_of_mem t hu)
    rw [List.flatMap_cons, List.flatMap_cons]
    cases ht with
    | define hu => exact (hsites List.mem_cons_self hu).append hrest
    | other ht =>
      rw [Tree.expandToken_of_isDefine _ ht, Tree.expandToken_of_isDefine _ ht]
      exact .same t hrest

/-- The tokens of a padded site are those of the site, but for the beginnings of absent nodes. -/
theorem sameOutside_tree (h : ctx.PaddedInto ctx')
    (hfilter : ∀ d, opts.keeps ctx' d = opts.keeps ctx d) : ∀ {fuel : Nat} {s s' : Site},
    s.PaddedInto ctx ctx' s' → Faultless (s.tree ctx opts fuel).tokens →
    SameOutside (Token.Replaces ctx ctx' Item.identity) (s.tree ctx opts fuel).tokens
      (s'.tree ctx' opts fuel).tokens
  | 0, _, _, _, hfault => absurd List.mem_cons_self (hfault .cyclic)
  | fuel + 1, s, s', hs, hfault => by
    cases hv : s.visit? with
    | none => exact sameOutside_of_absent hs hv fuel
    | some v =>
      obtain rfl := hs.eq_of_visit? hv
      rw [tokens_tree_succ, tokens_tree_succ]
      refine sameOutside_expand (paddedInto_layout h hfilter hv (faultless_layout hfault)) ?_
      -- what is defined inside a site is padded one level down
      intro u u' hdefine hu
      exact sameOutside_tree h hfilter hu (faultless_of_defines hfault hdefine)

end Site

/-! ### Calls -/

/-- A token is filled in the same way where the files are the same. -/
theorem Token.fill_congr (hfiles : ctx'.files = ctx.files) (t : Token Item) (s : Slots) :
    t.fill ctx' opts s = t.fill ctx opts s := by
  have hvalue : ∀ d : LocationDelta, d.value ctx' opts.paths = d.value ctx opts.paths := by
    intro d
    cases d with
    | absent | column | line => rfl
    | file f l c => rw [LocationDelta.value, LocationDelta.value, Context.fileName?, hfiles]; rfl
  cases t with
  | container | variant | close | tag => rfl
  | leaf a =>
    cases a with
    | scalar | identity | define | fault => rfl
    | location loc => rw [Token.fill, Token.fill, Item.fill, Item.fill, hvalue]

/-- The calls for the beginning of a node have its pointer, and leave the slots as they are. -/
theorem fillTokens_opening (hmode : opts.identityMode = .raw) {κ : Type} [NodeKind κ] (k : κ)
    (fields : Nat) (n : NodeRef) (ts : List (Token Item)) (s : Slots) :
    fillTokens ctx opts (Token.opening k fields (.identity n) ++ ts) s
      = (fillTokens ctx opts ts s).map fun x =>
        (Token.opening k fields (.string n.pointer) ++ x.1, x.2) := by
  simp only [Token.opening, List.cons_append, List.nil_append, fillTokens, Token.fill, Item.fill,
    IdentityTable.render, hmode]
  cases fillTokens ctx opts ts s <;> rfl

/-- Beginnings of nodes are filled with beginnings of nodes, and the slots after them are those before
them. -/
theorem Token.Replaces.exists_calls (hmode : opts.identityMode = .raw) {ps qs : List (Token Item)}
    (h : Token.Replaces ctx ctx' Item.identity ps qs) :
    ∃ calls calls' : List Call, Token.Replaces ctx ctx' (fun n => Scalar.string n.pointer) calls calls' ∧
      (∀ ts s, fillTokens ctx opts (ps ++ ts) s
        = (fillTokens ctx opts ts s).map fun x => (calls ++ x.1, x.2)) ∧
      ∀ ts s, fillTokens ctx' opts (qs ++ ts) s
        = (fillTokens ctx' opts ts s).map fun x => (calls' ++ x.1, x.2) := by
  cases h with
  | decl hnew =>
    exact ⟨_, _, .decl hnew, fillTokens_opening hmode _ _ _, fillTokens_opening hmode _ _ _⟩
  | stmt hnew =>
    exact ⟨_, _, .stmt hnew, fillTokens_opening hmode _ _ _, fillTokens_opening hmode _ _ _⟩
  | comment hnew =>
    exact ⟨_, _, .comment hnew, fillTokens_opening hmode _ _ _, fillTokens_opening hmode _ _ _⟩

/-- Where the tokens of a context can be filled, so can those of the padded context, with the same
locations; the calls differ in the pointers of absent nodes. -/
theorem exists_fillTokens_of_sameOutside (hfiles : ctx'.files = ctx.files)
    (hmode : opts.identityMode = .raw) {ts ts' : List (Token Item)}
    (h : SameOutside (Token.Replaces ctx ctx' Item.identity) ts ts') :
    ∀ {s s₁ : Slots} {calls : List Call}, fillTokens ctx opts ts s = .ok (calls, s₁) →
      ∃ calls', fillTokens ctx' opts ts' s = .ok (calls', s₁) ∧
        SameOutside (Token.Replaces ctx ctx' fun n => Scalar.string n.pointer) calls calls' := by
  induction h with
  | nil =>
    intro s s₁ calls hfill
    cases hfill
    exact ⟨[], rfl, .nil⟩
  | same t _ ih =>
    intro s s₁ calls hfill
    rw [fillTokens] at hfill ⊢
    rw [Token.fill_congr hfiles]
    split at hfill
    · cases hfill
    · next first s₂ hfirst =>
      split at hfill
      · cases hfill
      · next rest s₃ hrest =>
        cases hfill
        obtain ⟨rest', hrest', hsame⟩ := ih hrest
        simp only [hrest']
        exact ⟨_, rfl, (SameOutside.refl first).append hsame⟩
  | @part ps qs ts ts' hpart _ ih =>
    intro s s₁ calls hfill
    obtain ⟨first, first', hreplaces, hfirst, hfirst'⟩ := hpart.exists_calls hmode
    rw [hfirst] at hfill
    rw [hfirst']
    cases hrest : fillTokens ctx opts ts s with
    | error e =>
      rw [hrest] at hfill
      cases hfill
    | ok x =>
      rw [hrest] at hfill
      cases hfill
      obtain ⟨rest', hrest', hsame⟩ := ih hrest
      rw [hrest']
      exact ⟨_, rfl, .part hreplaces hsame⟩

/-! ### Documents -/

/-- The log of the beginning of a node that is written in the place of an absent one, and that of a new
node of `ctx'`. They differ in the pointers of the nodes. -/
def Event.Replaces (ctx ctx' : Context) (es es' : List Event) : Prop :=
  ∃ calls calls' : List Call, Token.Replaces ctx ctx' (fun n => Scalar.string n.pointer) calls calls'
    ∧ es = calls.map .ofCall ∧ es' = calls'.map .ofCall

/-- A filter of files depends on the files alone. -/
theorem Options.FiltersFiles.keeps_eq (h : opts.FiltersFiles) (hfiles : ctx'.files = ctx.files)
    (d : Decl) : opts.keeps ctx' d = opts.keeps ctx d := by
  rw [keeps, keeps]
  cases hf : opts.filter with
  | none => rfl
  | some f =>
    obtain ⟨names, rfl⟩ := h f hf
    simp only [DeclFilter.skipFiles, Context.fileName?, hfiles]

theorem Context.PaddedInto.check (h : ctx.PaddedInto ctx') {root : DeclId}
    (hcheck : opts.check ctx root = .ok ()) : opts.check ctx' root = .ok () := by
  rw [Options.check] at hcheck ⊢
  cases hvalidate : opts.validate with
  | error e =>
    rw [hvalidate] at hcheck
    cases hcheck
  | ok =>
    simp only [hvalidate, checkRoot] at hcheck ⊢
    cases hd : ctx.decl? root with
    | none =>
      rw [hd] at hcheck
      cases hcheck
    | some d =>
      rw [hd] at hcheck
      rw [h.decl hd]
      exact hcheck

namespace Session

/-- A document has sentinels in the places of absent nodes. Where it can be written with raw identities,
it can be written for the context with new nodes in these places, by the same session and with the same
log, but for the pointers with which these nodes begin. In the document these are the pointers of the
sentinels, which nothing else has. Of a filter it is asked that it decides alike in both contexts, as one
by file names does (`Options.FiltersFiles.keeps_eq`). -/
theorem write_paddedInto (h : ctx.PaddedInto ctx') {root : DeclId}
    (hfilter : ∀ d, opts.keeps ctx' d = opts.keeps ctx d) (hmode : opts.identityMode = .raw)
    {s s₁ : Session} {r : Recorder}
    (hwrite : s.write ctx root opts ({} : Recorder) = (.ok (), s₁, r)) :
    (∃ r', s.write ctx' root opts ({} : Recorder) = (.ok (), s₁, r') ∧
      SameOutside (Event.Replaces ctx ctx') r.events.toList r'.events.toList) ∧
    ∀ (family : Family) (n : NodeRef), n.pointer = (NodeRef.sentinel family).pointer →
      n = .sentinel family := by
  refine ⟨?_, fun family n hn => NodeRef.pointer_injective hn⟩
  obtain ⟨hidle, hcheck, hfree⟩ := accepted_of_write hwrite
  obtain ⟨v, w, hfill, hcalls, hfinish⟩ := performs_of_write (w := ({} : Recorder)) trivial rfl hwrite
  -- the tokens of both units are filled alike
  have hfilled : fillTokens ctx opts (Site.tree ctx opts ctx.nestingBound (.decl (some root))).tokens
      ⟨{}, s.identities⟩ = .ok (v.tokens, ⟨s₁.cursor, s₁.identities⟩) := by
    rw [Tree.fillTokens_tokens, hfill]
    rfl
  have htokens := Site.sameOutside_tree h hfilter (.decl (.held root)) (faultless_of_fillTokens hfilled)
  obtain ⟨calls', hfilled', hsame⟩ :=
    exists_fillTokens_of_sameOutside h.files hmode htokens hfilled
  -- the other context has another bound, which is as good
  rw [← Site.tokens_nestingBound (faultless_of_fillTokens hfilled'), Tree.fillTokens_tokens]
    at hfilled'
  obtain ⟨v', hfill', rfl⟩ : ∃ v', (Site.tree ctx' opts ctx'.nestingBound (.decl (some root))).fill
      ctx' opts ⟨{}, s.identities⟩ = .ok (v', ⟨s₁.cursor, s₁.identities⟩) ∧ v'.tokens = calls' := by
    cases hfill' : (Site.tree ctx' opts ctx'.nestingBound (.decl (some root))).fill ctx' opts
        ⟨{}, s.identities⟩ with
    | error e =>
      rw [hfill'] at hfilled'
      cases hfilled'
    | ok x =>
      obtain ⟨v', slots⟩ := x
      rw [hfill'] at hfilled'
      cases hfilled'
      exact ⟨v', rfl, rfl⟩
  obtain ⟨w', r', hcalls', hfinish', hwrite'⟩ :=
    write_of_fill (w := ({} : Recorder)) trivial rfl hidle (h.check hcheck) hfill'
  refine ⟨r', ?_, ?_⟩
  · rw [hwrite', ← hfree]
  · rw [Recorder.events_of_document hcalls hfinish, Recorder.events_of_document hcalls' hfinish']
    exact hsame.map fun hpart => ⟨_, _, hpart, rfl, rfl⟩

/-- A documented function whose body begins with an absent statement and ends with a lambda without a
class. The comment has an absent child. -/
def slotUnit : Context where
  files := #["main.cpp"]
  decls := #[{ kind := .translationUnit, context := some { decls := [⟨1⟩] } },
    { kind := .function, range := .point ⟨⟨0⟩, 3, 1⟩, fullComment := some ⟨0⟩,
      payload := .function { body := some ⟨0⟩ } }]
  stmts := #[{ kind := .compoundStmt, range := .point ⟨⟨0⟩, 3, 9⟩, children := [none, some ⟨1⟩] },
    { kind := .lambdaExpr, range := .point ⟨⟨0⟩, 4, 2⟩, expr := some {}, payload := .ownedDecl none }]
  comments := #[{ kind := .fullComment, range := .point ⟨⟨0⟩, 2, 1⟩, children := [none] }]

/-- The unit has a document with three sentinels, and so has the unit with nodes in their places. -/
theorem write_paddedInto_slotUnit : ∃ (s₁ : Session) (r r' : Recorder),
    slotUnit.PaddedInto slotUnit.pad ∧
    ({} : Session).write slotUnit ⟨0⟩ { identityMode := .raw, filter := some (.skipFiles ["list.h"]) }
      ({} : Recorder) = (.ok (), s₁, r) ∧
    ({} : Session).write slotUnit.pad ⟨0⟩
      { identityMode := .raw, filter := some (.skipFiles ["list.h"]) } ({} : Recorder)
      = (.ok (), s₁, r') ∧
    SameOutside (Event.Replaces slotUnit slotUnit.pad) r.events.toList r'.events.toList := by
  have hpadded : slotUnit.PaddedInto slotUnit.pad := Context.paddedInto_pad (by decide)
  have hok : (({} : Session).write slotUnit ⟨0⟩
      { identityMode := .raw, filter := some (.skipFiles ["list.h"]) }
      ({} : Recorder)).1.isOk = true := by
    decide +kernel
  have hfilter : ({ identityMode := .raw, filter := some (.skipFiles ["list.h"]) } :
      Options).FiltersFiles := by
    rintro f ⟨⟩
    exact ⟨_, rfl⟩
  obtain ⟨⟨s₁, r⟩, hwrite⟩ := exists_of_isOk hok
  obtain ⟨⟨r', hwrite', hsame⟩, -⟩ :=
    write_paddedInto hpadded (hfilter.keeps_eq hpadded.files) rfl hwrite
  exact ⟨s₁, r, r', hpadded, hwrite, hwrite', hsame⟩

end Session

end SyntaxExport
