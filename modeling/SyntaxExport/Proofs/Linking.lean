import SyntaxExport.Proofs.Builder.Links
import SyntaxExport.Proofs.Layout.Parents
import SyntaxExport.Proofs.Series

/-!
# Linked translation units

Whatever is requested of a builder, its declarations stay linked, and its builtin types are shared
(`Dialogue.links_consistent`). A declaration stands where it belongs, so no document of the unit says of a
declaration that it belongs elsewhere.
-/

namespace SyntaxExport

/-! ### Tags of documents -/

section Tags

variable {ctx : Context} {paths : PathRule} {name : String}

/-- The fields of a relative location. -/
theorem mem_of_tag_acts {d : LocationDelta} (h : .call (.tag name) ∈ (d.acts ctx paths).flatten) :
    name ∈ ["file", "line", "column"] := by
  cases d with
  | absent => cases h
  | column c | line l c =>
    simp only [LocationDelta.acts, Act.field, List.flatten_cons, List.flatten_nil, List.mem_append,
      List.mem_cons, List.not_mem_nil, Act.call.injEq, Token.tag.injEq, or_false, reduceCtorEq] at h
    simp [h]
  | file f l c =>
    rw [LocationDelta.acts, List.flatten_cons, List.mem_append] at h
    rcases h with hfile | hrest
    · split at hfile <;> simp_all [Act.field]
    · simp only [Act.field, List.flatten_cons, List.flatten_nil, List.mem_append, List.mem_cons,
        List.not_mem_nil, Act.call.injEq, Token.tag.injEq, or_false, reduceCtorEq] at hrest
      rcases hrest with rfl | rfl <;> simp

/-- The fields of a pass are those of its tokens and of its locations. -/
theorem tag_of_script (hname : name ∉ ["file", "line", "column"]) :
    ∀ {ts : List (Token Item)} {c : LocationCursor},
      .call (.tag name) ∈ script ctx paths c ts → .tag name ∈ ts
  | [], _, h => absurd h List.not_mem_nil
  | t :: ts, c, h => by
    rcases List.mem_append.mp h with hone | hrest
    · cases t with
      | tag other =>
        cases List.mem_singleton.mp hone
        exact List.mem_cons_self
      | leaf a =>
        cases a with
        | location loc =>
          have hdelta : .call (.tag name) ∈ ((c.delta loc).acts ctx paths).flatten := by
            simpa [Token.acts, Item.acts] using hone
          exact absurd (mem_of_tag_acts hdelta) hname
        | scalar | identity | define | fault => cases List.mem_singleton.mp hone
      | container | variant | close => cases List.mem_singleton.mp hone
    · exact List.mem_cons_of_mem t (tag_of_script hname hrest)

/-- What acts log comes from their calls. -/
theorem Act.call_of_entries {x : Event} : ∀ {as : List Act}, .event x ∈ entries as →
    ∃ c, .call c ∈ as ∧ x = .ofCall c
  | .call c :: as, h => by
    rcases List.mem_cons.mp h with hone | hrest
    · cases hone
      exact ⟨c, List.mem_cons_self, rfl⟩
    · obtain ⟨c', hc', hx⟩ := call_of_entries hrest
      exact ⟨c', List.mem_cons_of_mem _ hc', hx⟩
  | .identity n :: as, h => by
    rcases List.mem_cons.mp h with hone | hrest
    · cases hone
    · obtain ⟨c, hc, hx⟩ := call_of_entries hrest
      exact ⟨c, List.mem_cons_of_mem _ hc, hx⟩
  | .move loc :: as, h => by
    have hrest : .event x ∈ entries as := h
    obtain ⟨c, hc, hx⟩ := call_of_entries hrest
    exact ⟨c, List.mem_cons_of_mem _ hc, hx⟩
  | [], h | .fail _ :: _, h => absurd h List.not_mem_nil

/-- A field of a document is a field of its tokens or of a location. -/
theorem Export.tag_of_events {e : Export} {s : Session} (hname : name ∉ ["file", "line", "column"])
    (h : .tag name ∈ e.events s) :
    .tag name ∈ (Site.tree e.ctx e.opts e.ctx.nestingBound (.decl (some e.root))).tokens := by
  rw [(e.handed s).2.1] at h
  obtain ⟨x, hx, htag⟩ := List.mem_map.mp h
  have hentry : x ∈ e.ctx.entries e.root e.opts := List.mem_of_mem_take hx
  rw [Context.entries] at hentry
  split at hentry
  · cases hentry
  · cases x with
    | identity n => cases htag
    | event x =>
      obtain ⟨c, hc, rfl⟩ := Act.call_of_entries hentry
      cases c with
      | tag other =>
        cases htag
        exact tag_of_script hname hc
      | container | variant | close | leaf => cases htag

end Tags

/-! ### Dialogues -/

/-- A call for the builtin type of a kind, with its answer. -/
def Exchange.ofBuiltin (k : BuiltinKind) (t : TypeId) : Exchange :=
  ⟨.call (.builtin k), [.type t]⟩

namespace Dialogue

variable {t t' : Dialogue}

/-- The attachments that were made, in order. -/
def attachments (t : Dialogue) : List Attachment :=
  t.exchanges.flatMap fun x => x.request.attachments x.nodes

/-- Declarations are linked as they were attached, and the builtin types that were returned are noted. -/
structure Consistent (t : Dialogue) : Prop where
  linked : t.builder.context.Linked t.attachments none
  shares : t.builder.Shares
  noted : ∀ k i, .ofBuiltin k i ∈ t.exchanges → t.builder.builtins.lookup k = some i

theorem consistent_start (file : String) : (start file).Consistent := by
  rw [start, Builder.new_eq]
  refine ⟨⟨?_, nofun, nofun⟩, nofun, nofun⟩
  intro id d hd _
  have hunit : d = { kind := .translationUnit, context := some {} } := by
    have hmem := Array.mem_of_getElem? hd
    simpa using hmem
  rw [hunit]
  exact ⟨rfl, rfl⟩

theorem Consistent.request {r : BuilderRequest} (ht : t.Consistent) (h : t.request r = some t') :
    t'.Consistent := by
  obtain ⟨nodes, hrun, hfits, hexchanges⟩ := of_request h
  have hextends := BuilderRequest.extends_of_perform hrun hfits.decls
  refine ⟨?_, hextends.shares hfits.types ht.shares, fun k i hmem => ?_⟩
  · rw [attachments, hexchanges, List.flatMap_append, List.flatMap_singleton]
    exact BuilderRequest.linked_of_perform ht.linked hrun hfits.decls
  · rw [hexchanges] at hmem
    rcases List.mem_append.mp hmem with hmem | hmem
    · exact hextends.lookup k i (ht.noted k i hmem)
    · cases List.mem_singleton.mp hmem
      obtain ⟨i', hbuiltin, hnodes⟩ := Build.of_return hrun
      cases hnodes
      exact (Build.of_builtin hbuiltin).2

/-- After every list of requests, the two parents of a declaration are the same: the parent of its last
attachment, so that of its only one, and none if it was not attached. The parent has the declaration in
its context or among the parameters of its function. Calls for builtin types have the same answer if they
are for the same kind, and then only, and the answer is the type of the kind. So no document of what was
built has a field for the parent of a declaration, in whatever session it is written and whatever writer
takes it. -/
theorem links_consistent {file : String} {rs : List BuilderRequest} {t : Dialogue}
    (h : (start file).requests rs = some t) :
    (∀ id d, t.builder.context.decl? id = some d →
      d.semanticParent = d.lexicalParent ∧
      d.semanticParent = (Attachment.parents t.attachments id).getLast? ∧
      ∀ p, d.semanticParent = some p → t.builder.context.Lists p id) ∧
    (∀ k₁ k₂ i₁ i₂, .ofBuiltin k₁ i₁ ∈ t.exchanges → .ofBuiltin k₂ i₂ ∈ t.exchanges →
      (i₁ = i₂ ↔ k₁ = k₂)) ∧
    (∀ k i, .ofBuiltin k i ∈ t.exchanges → t.builder.context.type? i = some k.node) ∧
    ∀ (e : Export) (s : Session), e.ctx = t.builder.context →
      .tag "parent_pointer" ∉ e.events s := by
  have ht : t.Consistent := keeps_of_requests Consistent.request (consistent_start file) h
  have hnode : ∀ k i, .ofBuiltin k i ∈ t.exchanges → t.builder.context.type? i = some k.node :=
    fun k i hi => ht.shares k i (ht.noted k i hi)
  refine ⟨fun id d hd => ?_, fun k₁ k₂ i₁ i₂ h₁ h₂ => ⟨?_, ?_⟩, hnode, fun e s he htag => ?_⟩
  · obtain ⟨hsemantic, hlexical⟩ := ht.linked.parents id d hd nofun
    refine ⟨hlexical.symm, hsemantic, fun p hp => ?_⟩
    obtain ⟨a, ha, rfl⟩ := List.mem_map.mp (List.mem_of_getLast? (hsemantic.symm.trans hp))
    obtain ⟨hattached, hchild⟩ := List.mem_filter.mp ha
    rw [← of_decide_eq_true hchild]
    exact ht.linked.lists a hattached
  · -- one type is the type of one kind
    rintro rfl
    have hsame := (hnode k₁ i₁ h₁).symm.trans (hnode k₂ i₁ h₂)
    exact TypePayload.builtin.inj (congrArg TypeNode.payload (Option.some.inj hsame))
  · rintro rfl
    exact Option.some.inj ((ht.noted k₁ i₁ h₁).symm.trans (ht.noted k₁ i₂ h₂))
  · have hparents : ∀ id d, e.ctx.decl? id = some d → d.lexicalParent = d.semanticParent := by
      rw [he]
      exact fun id d hd => (ht.linked.parents id d hd nofun).2
    exact Site.parentless_tree e.opts hparents _ _ (Export.tag_of_events (by decide) htag)

/-- A function with a parameter, in the translation unit and again in a record that was said to belong
to a declaration that there is not. -/
def reattachedExchanges : List Exchange :=
  [.ofBuiltin .int ⟨0⟩, ⟨.call (.param "n" (.plain ⟨0⟩) .absent), [.decl ⟨1⟩]⟩,
    ⟨.call (.intLiteral 1 .absent), [.stmt ⟨0⟩]⟩, .ofBuiltin .bool ⟨1⟩, .ofBuiltin .int ⟨0⟩,
    ⟨.call (.function ⟨0⟩ "next" ⟨0⟩ [⟨1⟩] none .absent), [.decl ⟨2⟩]⟩,
    ⟨.declare ⟨0⟩ { kind := .record, semanticParent := some ⟨9⟩, payload := .record {} }, [.decl ⟨3⟩]⟩,
    ⟨.call (.addToContext ⟨3⟩ ⟨2⟩), []⟩]

/-- The function belongs to the record, and the parameter to the function. -/
theorem links_consistent_reattached : ∃ t f p,
    (start "links.c").requests (reattachedExchanges.map (·.request)) = some t ∧
    t.builder.context.decl? ⟨2⟩ = some f ∧ t.builder.context.decl? ⟨1⟩ = some p ∧
    f.semanticParent = some ⟨3⟩ ∧ f.lexicalParent = some ⟨3⟩ ∧ p.semanticParent = some ⟨2⟩ ∧
    t.builder.context.Lists ⟨3⟩ ⟨2⟩ ∧ t.builder.context.type? ⟨1⟩ = some BuiltinKind.bool.node ∧
    .tag "parent_pointer" ∉ (Session.recorded t.builder.context ⟨0⟩).events {} := by
  have hanswers : ((start "links.c").requests (reattachedExchanges.map (·.request))).map (fun t =>
      (t.exchanges, (t.builder.context.decl? ⟨2⟩).isSome, (t.builder.context.decl? ⟨1⟩).isSome))
      = some (reattachedExchanges, true, true) := by
    decide +kernel
  obtain ⟨t, ht, hall⟩ := Option.map_eq_some_iff.mp hanswers
  obtain ⟨hexchanges, hdecls⟩ := Prod.mk.inj hall
  obtain ⟨hfunction, hparam⟩ := Prod.mk.inj hdecls
  obtain ⟨f, hf⟩ := Option.isSome_iff_exists.mp hfunction
  obtain ⟨p, hp⟩ := Option.isSome_iff_exists.mp hparam
  obtain ⟨hlinks, -, hbuiltin, hexport⟩ := links_consistent ht
  obtain ⟨hsame, hlast, hlisted⟩ := hlinks _ f hf
  obtain ⟨-, hparamLast, -⟩ := hlinks _ p hp
  rw [attachments, hexchanges] at hlast hparamLast
  have hbool : .ofBuiltin .bool ⟨1⟩ ∈ t.exchanges := by
    rw [hexchanges]
    decide +kernel
  exact ⟨t, f, p, ht, hf, hp, hlast, hsame ▸ hlast, hparamLast, hlisted _ hlast, hbuiltin _ _ hbool,
    hexport _ {} rfl⟩

end Dialogue

end SyntaxExport
