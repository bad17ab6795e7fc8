import SyntaxExport.Proofs.Pass.Filling
import SyntaxExport.Session

/-!
# The writer accepts every document

Sizes are declared in one place and parts are written in another. `Session.write_respects_scopes` says
that they agree for every context and every options, whatever the payloads are: no writer that makes
the checks of its scopes rejects a call, a node that is written has the tag and the number of fields
of its kind, and a document is complete exactly where its session says so.
-/

namespace SyntaxExport

/-! ### Forms of nodes -/

/-- The tag of the nodes of a kind, and the number of their fields. -/
def NodeKind.form {κ : Type} [NodeKind κ] (k : κ) : String × Nat :=
  (NodeKind.tag k, NodeKind.tupleSize k)

/-- The form of the node that a site defines. -/
def Site.form? (ctx : Context) : Site → Option (String × Nat)
  | .decl none => some (NodeKind.form Layout.sentinelDecl.kind)
  | .decl (some id) => (ctx.decl? id).map fun d => NodeKind.form d.kind
  | .stmt none => some (NodeKind.form Layout.sentinelStmt.kind)
  | .stmt (some id) => (ctx.stmt? id).map fun s => NodeKind.form s.kind
  | .comment none => some (NodeKind.form Layout.sentinelComment.kind)
  | .comment (some id) => (ctx.comment? id).map fun c => NodeKind.form c.kind

/-- A variant with the tag of a form around a tuple with its number of fields. -/
def Value.HasForm (form : String × Nat) (v : Value) : Prop :=
  ∃ items, v = .variant form.1 (.tuple items) ∧ items.length = form.2

/-- A layout that is a fault or has the form of a node. -/
def Layout.IsNode (form : String × Nat) (l : Layout) : Prop :=
  (∃ e, l = .fault e) ∨ ∃ fields, l = .variant form.1 (.tuple form.2 fields)

theorem Layout.isNode_node {κ : Type} [NodeKind κ] (k : κ) (level : κ → List Layout) :
    (node k level).IsNode (NodeKind.form k) := by
  unfold node
  split
  · exact .inl ⟨_, rfl⟩
  · exact .inr ⟨_, rfl⟩

/-- A site has a form unless it is outside its arena. -/
theorem Site.isNode_layout (ctx : Context) (opts : Options) (s : Site) :
    (∃ e, s.layout ctx opts = .fault e)
      ∨ ∃ form, s.form? ctx = some form ∧ (s.layout ctx opts).IsNode form := by
  unfold Site.layout Site.form?
  split
  · exact .inr ⟨_, rfl, Layout.isNode_node ..⟩
  · next id =>
    split
    · exact .inl ⟨_, rfl⟩
    · next d hd => exact .inr ⟨_, congrArg (Option.map _) hd, Layout.isNode_node ..⟩
  · exact .inr ⟨_, rfl, Layout.isNode_node ..⟩
  · next id =>
    split
    · exact .inl ⟨_, rfl⟩
    · next s hs => exact .inr ⟨_, congrArg (Option.map _) hs, Layout.isNode_node ..⟩
  · exact .inr ⟨_, rfl, Layout.isNode_node ..⟩
  · next id =>
    split
    · exact .inl ⟨_, rfl⟩
    · next c hc => exact .inr ⟨_, congrArg (Option.map _) hc, Layout.isNode_node ..⟩

/-- What is written for a node has the form of the node. -/
theorem Layout.hasForm_of_fill {ctx : Context} {opts : Options} {form : String × Nat} {l : Layout}
    (hl : l.WellFormed) (hnode : l.IsNode form) {define : Site → Tree Item} {s s' : Slots}
    {v : Value} (h : (l.tree.bind (Item.expand define)).fill ctx opts s = .ok (v, s')) :
    v.HasForm form := by
  rcases hnode with ⟨e, rfl⟩ | ⟨fields, rfl⟩
  · cases h
  · obtain ⟨⟨hsize, -⟩, -⟩ := hl
    simp only [Layout.tree, Tree.bind, Tree.fill] at h
    split at h
    · cases h
    · next hitems =>
      split at hitems
      · cases hitems
      · next hfields =>
        cases hitems
        cases h
        have hlength := Tree.length_of_fillItems hfields
        rw [Tree.length_bindItems, Layout.length_itemTrees, ← hsize] at hlength
        exact ⟨_, rfl, hlength⟩

theorem Site.hasForm_of_fill {ctx : Context} {opts : Options} :
    ∀ {fuel : Nat} {s : Site} {slots slots' : Slots} {v : Value},
      (s.tree ctx opts fuel).fill ctx opts slots = .ok (v, slots') →
      ∃ form, s.form? ctx = some form ∧ v.HasForm form
  | 0, _, _, _, _, h => nomatch h
  | fuel + 1, s, slots, slots', v, h => by
    rw [Site.tree] at h
    rcases s.isNode_layout ctx opts with ⟨e, he⟩ | ⟨form, hform, hnode⟩
    · rw [he] at h
      cases h
    · exact ⟨form, hform, Layout.hasForm_of_fill (s.wellFormed_layout ctx opts) hnode h⟩

/-! ### Writing one node -/

open ScopedWriter (scopes Reliable)

variable {σ : Type} [ScopedWriter σ]

/-- Wherever a value may stand, `step` writes one node, the form of which is `form?`, with every node
inside in its own form; or it fails, and not because the writer rejects a call. -/
def Pass.WritesNode (form? : Option (String × Nat)) (step : PassStep σ) : Prop :=
  ∀ (p : Pass σ) (slot : Slot) (after : ScopeStack), Reliable p.writer →
    (scopes p.writer).value = .ok (slot, after) →
    match step p with
    | (.error e, q) => (∀ w, e ≠ .write w) ∧ (scopes q.writer).isFinished = false
    | (.ok (), q) => scopes q.writer = after ∧ Reliable q.writer ∧
      ∃ (form : String × Nat) (v : Value), form? = some form ∧ v.HasForm form ∧ v.Formed (fun _ => True)
        ∧ Performs v.tokens p.writer q.writer

namespace Pass

theorem WritesNode.exists_value {form? : Option (String × Nat)} {step : PassStep σ}
    (h : WritesNode form? step) {p q : Pass σ} {slot : Slot} {after : ScopeStack}
    (hw : Reliable p.writer) (ha : (scopes p.writer).value = .ok (slot, after))
    (hstep : step p = (.ok (), q)) : ∃ (form : String × Nat) (v : Value),
      form? = some form ∧ v.HasForm form ∧ Performs v.tokens p.writer q.writer := by
  have hnode := h p slot after hw ha
  rw [hstep] at hnode
  obtain ⟨-, -, form, v, hsome, hv, -, hcalls⟩ := hnode
  exact ⟨form, v, hsome, hv, hcalls⟩

/-- A run over a tree of nodes writes a node where the filled tree has the form of one. -/
theorem writesNode_run {ctx : Context} {opts : Options} {t : Tree Item}
    {form? : Option (String × Nat)} (ht : t.Formed Item.IsNoRejection)
    (hform : ∀ {s s' : Slots} {v : Value}, t.fill ctx opts s = .ok (v, s') →
      ∃ form, form? = some form ∧ v.HasForm form) :
    WritesNode form? (run ctx opts t : PassStep σ) := by
  intro p slot after hw ha
  have hrun := run_outcome ctx opts t ⟨p.cursor, p.identities⟩ hw ha
  cases hfill : t.fill ctx opts ⟨p.cursor, p.identities⟩ with
  | error e =>
    rw [hfill] at hrun
    obtain ⟨q, hq, hplace⟩ := hrun
    rw [show p = ofSlots ⟨p.cursor, p.identities⟩ p.writer from rfl, hq]
    exact ⟨Tree.ne_write_of_fill ht hfill,
      by simpa [ScopeStack.isFinished] using hplace.frames_ne_nil⟩
  | ok x =>
    obtain ⟨v, s'⟩ := x
    rw [hfill] at hrun
    obtain ⟨w', hq, hcalls, hs, hw'⟩ := hrun
    obtain ⟨form, hsome, hv⟩ := hform hfill
    rw [show p = ofSlots ⟨p.cursor, p.identities⟩ p.writer from rfl, hq]
    exact ⟨hs, hw', form, v, hsome, hv, (Tree.formed_of_fill ht hfill).1, hcalls⟩

theorem writesNode_site (ctx : Context) (opts : Options) (fuel : Nat) (s : Site) :
    WritesNode (s.form? ctx) (site ctx opts fuel s : PassStep σ) := by
  rw [site_eq_run]
  exact writesNode_run (s.formed_tree ctx opts fuel) Site.hasForm_of_fill

/-- A layout of a node writes that node, whatever nodes it defines inside. -/
theorem writesNode_layout (ctx : Context) (opts : Options) (fuel : Nat) {l : Layout}
    {form : String × Nat} (hl : l.WellFormed) (hnode : l.IsNode form) :
    WritesNode (some form) (layout ctx opts (site ctx opts fuel) l : PassStep σ) := by
  have hsites : (site ctx opts fuel : Site → PassStep σ)
      = fun s => run ctx opts (s.tree ctx opts fuel) :=
    funext (site_eq_run ctx opts fuel)
  rw [hsites, layout_eq_run ctx opts hl]
  refine writesNode_run (Layout.formed_bind_tree hl (Site.formed_tree ctx opts fuel)) ?_
  intro s s' v h
  exact ⟨form, rfl, Layout.hasForm_of_fill hl hnode h⟩

end Pass

/-! ### Whole documents -/

theorem Options.ne_write_of_check {opts : Options} {ctx : Context} {root : DeclId}
    {e : ExportError} (h : opts.check ctx root = .error e) : ∀ w, e ≠ .write w := by
  rw [check] at h
  split at h
  · cases h
    nofun
  · rw [Context.checkRoot] at h
    split at h
    · cases h
      nofun
    · split at h
      · cases h
      · cases h
        nofun

namespace Session

/-- The pass over a document, written into a fresh writer, is rejected nowhere, and ends the document
where it succeeds. -/
theorem runPass_fresh (ctx : Context) (root : DeclId) (opts : Options) (ids : IdentityTable) {w : σ}
    (hw : Reliable w) (hfresh : scopes w = {}) :
    match runPass ctx root opts ⟨{}, ids, w⟩ with
    | (.error e, q) => (∀ e', e ≠ .write e') ∧ (scopes q.writer).isFinished = false
    | (.ok (), q) => (scopes q.writer).isFinished = true := by
  have hvalue := ScopedWriter.value_of_fresh hfresh
  have hsite := Pass.writesNode_site ctx opts ctx.nestingBound (.decl (some root))
    (⟨{}, ids, w⟩ : Pass σ) _ _ hw hvalue
  rw [runPass, Pass.all]
  split at hsite
  · next e q hq =>
    rw [hq]
    exact hsite
  · next q hq =>
    obtain ⟨hs, hq', -⟩ := hsite
    have hfinish : (scopes q.writer).finish = .ok ⟨[]⟩ := by
      rw [hs]
      rfl
    obtain ⟨w', hw', hs'⟩ := ScopedWriter.finish_ok hq' hfinish
    rw [hq]
    simp [Pass.all, hw', hs', ScopeStack.isFinished]

/-- Where a document is not written, it fails for another reason than a rejection by the writer; and
it is ended exactly where it succeeds. -/
theorem write_fresh (ctx : Context) (root : DeclId) (opts : Options) (s : Session) {w : σ}
    (hw : Reliable w) (hfresh : scopes w = {}) :
    (∀ e, (s.write ctx root opts w).1 ≠ .error (.write e)) ∧
    ((scopes (s.write ctx root opts w).2.2).isFinished = true
      ↔ (s.write ctx root opts w).1 = .ok ()) := by
  have hopen : (scopes w).isFinished = false := by
    rw [hfresh]
    rfl
  rw [write]
  split
  · simp [hopen]
  · split
    · next e he => simp [hopen, Options.ne_write_of_check he]
    · have hpass := runPass_fresh ctx root opts s.identities hw hfresh
      split
      · next q hq =>
        rw [hq] at hpass
        simp [hpass]
      · next e q hq =>
        rw [hq] at hpass
        simp [hpass]

/-- Declared sizes are the sizes that are written. Wherever a value may stand, a pass over any site or
any type writes one node with the tag and the number of fields of its kind, or fails for another
reason than a rejection by the writer; and a document in a fresh writer is never rejected, and ended
exactly where its session succeeds. -/
theorem write_respects_scopes (ctx : Context) (root : DeclId) (opts : Options) (s : Session) {w : σ}
    (hw : Reliable w) (hfresh : scopes w = {}) :
    (∀ (fuel : Nat) (site : Site),
      Pass.WritesNode (site.form? ctx) (Pass.site ctx opts fuel site : PassStep σ)) ∧
    (∀ (fuel : Nat) (id : TypeId) (t : TypeNode),
      Pass.WritesNode (some (NodeKind.form t.kind))
        (Pass.layout ctx opts (Pass.site ctx opts fuel) (Layout.typeNode id t) : PassStep σ)) ∧
    (∀ fuel : Nat, Pass.WritesNode (some (NodeKind.form TypeKind.noType))
      (Pass.layout ctx opts (Pass.site ctx opts fuel) Layout.noType : PassStep σ)) ∧
    (∀ e, (s.write ctx root opts w).1 ≠ .error (.write e)) ∧
    ((scopes (s.write ctx root opts w).2.2).isFinished = true
      ↔ (s.write ctx root opts w).1 = .ok ()) := by
  refine ⟨Pass.writesNode_site ctx opts, ?_, ?_, write_fresh ctx root opts s hw hfresh⟩
  · intro fuel id t
    exact Pass.writesNode_layout ctx opts fuel (Layout.wellFormed_typeNode id t)
      (Layout.isNode_node ..)
  · intro fuel
    exact Pass.writesNode_layout ctx opts fuel Layout.wellFormed_noType (.inr ⟨_, rfl⟩)

/-- A translation unit with a documented function, a parameter, and a variable in its body. -/
def functionUnit : Context where
  files := #["main.c"]
  decls := #[{ kind := .translationUnit, context := some { decls := [⟨1⟩] } },
    { kind := .function, fullComment := some ⟨0⟩,
      payload := .function { params := [⟨2⟩], body := some ⟨0⟩ } },
    { kind := .parmVar, payload := .var {} },
    { kind := .var, payload := .var { init := some ⟨2⟩ } }]
  stmts := #[{ kind := .compoundStmt, children := [some ⟨1⟩, none] },
    { kind := .declStmt, payload := .decls [⟨3⟩] },
    { kind := .integerLiteral, expr := some {}, payload := .integerLiteral true 32 "1" }]
  types := #[{ kind := .builtin, spelling := "int", payload := .builtin .int }]
  comments := #[{ kind := .fullComment }]

theorem exists_of_isOk {α : Type} {x : Except ExportError Unit × α} (h : x.1.isOk = true) :
    ∃ a, x = (.ok (), a) := by
  obtain ⟨result, a⟩ := x
  cases result with
  | error e => cases h
  | ok => exact ⟨a, rfl⟩

/-- The unit is written to its end. The body of its function, written alone, is one node with the form of
its kind. -/
theorem write_respects_scopes_functionUnit :
    (∃ (s' : Session) (r : Recorder), ({} : Session).write functionUnit ⟨0⟩ { identityMode := .raw }
      ({} : Recorder) = (.ok (), s', r) ∧ r.isFinished = true) ∧
    ∃ (v : Value) (q : Pass Recorder), v.HasForm ("CompoundStmt", 2) ∧
      Pass.site functionUnit { identityMode := .raw } 8 (.stmt (some ⟨0⟩)) ⟨{}, {}, {}⟩ = (.ok (), q) ∧
      Performs v.tokens ({} : Recorder) q.writer := by
  obtain ⟨hsites, -, -, -, hend⟩ := write_respects_scopes functionUnit ⟨0⟩ { identityMode := .raw } {}
    (w := ({} : Recorder)) trivial rfl
  constructor
  · have hok : (({} : Session).write functionUnit ⟨0⟩ { identityMode := .raw }
        ({} : Recorder)).1.isOk = true := by
      decide +kernel
    generalize ({} : Session).write functionUnit ⟨0⟩ { identityMode := .raw } ({} : Recorder) = x
      at hok hend
    obtain ⟨⟨s', r⟩, rfl⟩ := exists_of_isOk hok
    exact ⟨s', r, rfl, hend.mpr rfl⟩
  · obtain ⟨q, hbody⟩ : ∃ q, Pass.site functionUnit { identityMode := .raw } 8 (.stmt (some ⟨0⟩))
        (⟨{}, {}, {}⟩ : Pass Recorder) = (.ok (), q) := by
      refine exists_of_isOk ?_
      decide +kernel
    have hform : Site.form? functionUnit (.stmt (some ⟨0⟩)) = some ("CompoundStmt", 2) := by
      decide +kernel
    obtain ⟨form, v, hsome, hv, hcalls⟩ := (hsites 8 (.stmt (some ⟨0⟩))).exists_value
      (p := ⟨{}, {}, {}⟩) trivial (ScopedWriter.value_of_fresh rfl) hbody
    obtain rfl : ("CompoundStmt", 2) = form := Option.some.inj (hform.symm.trans hsome)
    exact ⟨v, q, hv, hbody, hcalls⟩

end Session

end SyntaxExport
