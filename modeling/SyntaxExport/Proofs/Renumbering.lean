import SyntaxExport.Proofs.Arity
import SyntaxExport.Proofs.Identity.Numbering
import SyntaxExport.Proofs.Pass.Record
import SyntaxExport.Proofs.Visits

/-!
# Numbered documents

A document with numbered identities is the document with raw identities, renamed by first appearance.
The two are logged entry by entry in the same places, whether or not the document is written to its
end, and differ in the texts of identities alone: where the raw document has the word of a node, the
other has its index among the words in the order in which they first appear
(`Session.write_anonymized`).
-/

namespace SyntaxExport

/-! ### Options that matter -/

section Filter

variable {opts opts' : Options} (h : opts.filter = opts'.filter) (ctx : Context)

include h

theorem Options.keeps_congr : opts.keeps ctx = opts'.keeps ctx := by
  funext d
  rw [keeps, keeps, h]

namespace Layout

theorem keptChildren_congr : ∀ ids : List DeclId,
    keptChildren ctx opts ids = keptChildren ctx opts' ids
  | [] => rfl
  | id :: ids => by
    simp only [keptChildren, Options.keeps_congr h ctx, keptChildren_congr ids]

theorem declLevel_congr (n : NodeRef) (d : Decl) (level : DeclKind) :
    declLevel ctx opts n d level = declLevel ctx opts' n d level := by
  have hcontext : declContext ctx opts d = declContext ctx opts' d := by
    simp only [declContext, keptChildren_congr h ctx]
  unfold declLevel
  rw [hcontext]

theorem declNode_congr (n : NodeRef) (d : Decl) :
    declNode ctx opts n d = declNode ctx opts' n d :=
  congrArg (node d.kind) (funext (declLevel_congr h ctx n d))

end Layout

namespace Site

/-- Of the options, a layout depends on the filter alone. -/
theorem layout_congr (s : Site) : s.layout ctx opts = s.layout ctx opts' := by
  cases s with
  | decl id =>
    cases id with
    | none => exact Layout.declNode_congr h ctx _ _
    | some id =>
      rw [layout, layout]
      cases ctx.decl? id with
      | none => rfl
      | some d => exact Layout.declNode_congr h ctx _ d
  | stmt id | comment id => cases id <;> rfl

theorem tree_congr : ∀ (fuel : Nat) (s : Site), s.tree ctx opts fuel = s.tree ctx opts' fuel
  | 0, _ => rfl
  | fuel + 1, s => by
    have hinside : tree ctx opts fuel = tree ctx opts' fuel := funext (tree_congr fuel)
    rw [tree, tree, layout_congr h, hinside]

end Site

end Filter

/-! ### Logs of sessions -/

namespace Context

variable (ctx : Context) (root : DeclId) (opts : Options)

/-- The acts of the pass over a translation unit. -/
def acts : List Act :=
  script ctx opts.paths {} (Site.tree ctx opts ctx.nestingBound (.decl (some root))).tokens

/-- What is logged for a translation unit. Nothing is, where options or root are refused. -/
def entries : List Entry :=
  match opts.check ctx root with
  | .error _ => []
  | .ok () => Act.entries (ctx.acts root opts)

/-- What the document of a translation unit comes to. -/
def outcome : Except ExportError Unit :=
  match opts.check ctx root with
  | .error e => .error e
  | .ok () => Act.outcome (ctx.acts root opts)

variable (mode : IdentityMode)

theorem acts_identityMode : ctx.acts root { opts with identityMode := mode } = ctx.acts root opts := by
  have hfilter : ({ opts with identityMode := mode } : Options).filter = opts.filter := rfl
  rw [acts, acts, Site.tree_congr hfilter ctx]

theorem entries_identityMode :
    ctx.entries root { opts with identityMode := mode } = ctx.entries root opts := by
  rw [entries, entries, acts_identityMode]
  rfl

theorem outcome_identityMode :
    ctx.outcome root { opts with identityMode := mode } = ctx.outcome root opts := by
  rw [outcome, outcome, acts_identityMode]
  rfl

end Context

namespace Session

variable (ctx : Context) (root : DeclId) (opts : Options)

/-- The pass over a document, up to its end, performs its acts. -/
theorem site_eq_acts {σ : Type} [DocumentWriter σ] (ids : IdentityTable) (w : σ) :
    Pass.site ctx opts ctx.nestingBound (.decl (some root)) ⟨{}, ids, w⟩
      = Act.performAll opts.identityMode (ctx.acts root opts) ⟨{}, ids, w⟩ := by
  rw [Pass.site_eq_run, Pass.run_eq_script]
  rfl

/-- What the pass over a document leaves behind, unless a call is rejected. -/
theorem recorded_runPass {ids : IdentityTable}
    (h : ∀ e, (runPass ctx root opts ⟨{}, ids, ({} : Recorder)⟩).1 ≠ .error (.write e)) :
    (runPass ctx root opts ⟨{}, ids, ({} : Recorder)⟩).1 = Act.outcome (ctx.acts root opts)
    ∧ (runPass ctx root opts ⟨{}, ids, ({} : Recorder)⟩).2.identities
      = ids.renderAll opts.identityMode (Entry.nodes (Act.entries (ctx.acts root opts)))
    ∧ (runPass ctx root opts ⟨{}, ids, ({} : Recorder)⟩).2.writer.events.toList
      = (Act.entries (ctx.acts root opts)).map (Entry.toEvent
        ((runPass ctx root opts ⟨{}, ids, ({} : Recorder)⟩).2.identities.text opts.identityMode)) := by
  have hsite := site_eq_acts ctx root opts ids ({} : Recorder)
  have hacts : ∀ e, (Act.performAll opts.identityMode (ctx.acts root opts)
      ⟨{}, ids, ({} : Recorder)⟩).1 ≠ .error (.write e) := by
    rw [← hsite]
    exact Pass.ne_write_of_all_cons h
  rw [runPass, Pass.all, hsite] at h ⊢
  obtain ⟨hresult, hidentities, hevents⟩ := Pass.recorded_performAll hacts
  cases hperform : Act.performAll opts.identityMode (ctx.acts root opts)
      ⟨{}, ids, ({} : Recorder)⟩ with
  | mk result q =>
    rw [hperform] at h hresult hidentities hevents
    cases result with
    | error e => exact ⟨hresult, hidentities, hevents⟩
    | ok =>
      simp only [Pass.all_singleton] at h ⊢
      have hfinished := Recorder.events_finish q.writer
      split at h
      · next r hr =>
        rw [hr] at hfinished
        exact ⟨hresult, hidentities, (congrArg Array.toList hfinished).trans hevents⟩
      · next e r hr => exact absurd rfl (h e)

/-- What a session leaves behind of a document in a fresh recorder, whether or not it succeeds. -/
theorem recorded_write {s : Session} (hs : s.inUse = false) :
    (s.write ctx root opts ({} : Recorder)).1 = ctx.outcome root opts
    ∧ (s.write ctx root opts ({} : Recorder)).2.1.identities
      = s.identities.renderAll opts.identityMode (Entry.nodes (ctx.entries root opts))
    ∧ (s.write ctx root opts ({} : Recorder)).2.2.events.toList
      = (ctx.entries root opts).map (Entry.toEvent
        ((s.write ctx root opts ({} : Recorder)).2.1.identities.text opts.identityMode)) := by
  have hreject := (write_fresh ctx root opts s (w := ({} : Recorder)) trivial rfl).1
  rw [write, if_neg (by simp [hs])] at hreject ⊢
  rw [Context.entries, Context.outcome]
  cases hcheck : opts.check ctx root with
  | error e => exact ⟨rfl, rfl, rfl⟩
  | ok =>
    simp only [hcheck] at hreject ⊢
    have hpass : ∀ e, (runPass ctx root opts ⟨{}, s.identities, ({} : Recorder)⟩).1
        ≠ .error (.write e) := by
      intro e he
      refine hreject e ?_
      split
      · next hok =>
        rw [hok] at he
        cases he
      · next herror =>
        rw [herror] at he
        exact he
    have hrecorded := recorded_runPass ctx root opts hpass
    cases hrun : runPass ctx root opts ⟨{}, s.identities, ({} : Recorder)⟩ with
    | mk result p =>
      rw [hrun] at hrecorded
      cases result with
      | error e => exact hrecorded
      | ok => exact hrecorded

end Session

/-! ### Numbers in the log -/

namespace Entry

variable (es : List Entry)

/-- The raw identities of a log, in the order of their first appearance. -/
def words : List String :=
  ((nodes es).map NodeRef.pointer).eraseDups

/-- The index of a node among the raw identities of a log, in decimal. -/
def number (n : NodeRef) : String :=
  toString ((words es).idxOf n.pointer)

/-- Words are known by their texts. -/
theorem words_eq :
    words es = ((nodes es).map NodeRef.identity).eraseDups.map NodeIdentity.text := by
  have htext : Function.Injective NodeIdentity.text := fun _ _ h => NodeIdentity.text_injective h
  rw [words, ← eraseDups_map htext, List.map_map]
  rfl

theorem idxOf_words (n : NodeRef) : (words es).idxOf n.pointer
    = ((nodes es).map NodeRef.identity).eraseDups.idxOf n.identity := by
  have htext : Function.Injective NodeIdentity.text := fun _ _ h => NodeIdentity.text_injective h
  rw [words_eq]
  exact idxOf_map htext n.identity _

theorem pointer_mem_words {n : NodeRef} (hn : n ∈ nodes es) : n.pointer ∈ words es :=
  List.mem_eraseDups.mpr (List.mem_map_of_mem hn)

theorem number_inj {n m : NodeRef} (hn : n ∈ nodes es) :
    number es n = number es m ↔ n.pointer = m.pointer := by
  rw [number, number, toString_injective.eq_iff, List.idxOf_inj (pointer_mem_words es hn)]

/-- The numbers of a log are all those below the number of its words. -/
theorem eraseDups_numbers : ((nodes es).map (number es)).eraseDups
    = (List.range (words es).length).map toString := by
  have hnumbers : (nodes es).map (number es)
      = (((nodes es).map NodeRef.pointer).map (words es).idxOf).map toString := by
    rw [List.map_map, List.map_map]
    rfl
  rw [hnumbers, eraseDups_map toString_injective, words, eraseDups_map_idxOf]

end Entry

namespace IdentityTable

theorem Numbers.renderAll : ∀ {ns : List NodeRef} {t : IdentityTable} {is : List NodeIdentity},
    t.Numbers is → (t.renderAll .anonymized ns).Numbers (is ++ ns.map NodeRef.identity)
  | [], t, is, h => by
    rw [List.map_nil, List.append_nil]
    exact h
  | n :: ns, t, is, h => by
    have hrest : ((t.intern n.identity).2.renderAll .anonymized ns).Numbers
        (is ++ [n.identity] ++ ns.map NodeRef.identity) := (h.intern n.identity).renderAll
    rw [List.append_assoc] at hrest
    exact hrest

/-- The text of a node, as long as there are numbers for all identities. -/
theorem Numbers.text_eq {t : IdentityTable} {is : List NodeIdentity} (h : t.Numbers is)
    (hfew : t.size ≤ UInt32.size) {n : NodeRef} (hn : n.identity ∈ is) :
    t.text .anonymized n = toString (is.eraseDups.idxOf n.identity) := by
  have hlt := List.idxOf_lt_length_of_mem (List.mem_eraseDups.mpr hn)
  have hsize := h.size
  have hmin : min (is.eraseDups.idxOf n.identity) (UInt32.size - 1)
      = is.eraseDups.idxOf n.identity := by omega
  rw [text, render, h.fst_intern hn, hmin]

/-- The text of a node in the table of a log that has no more words than there are numbers. -/
theorem text_of_numbers {es : List Entry} {t : IdentityTable}
    (h : t.Numbers ((Entry.nodes es).map NodeRef.identity))
    (hfew : (Entry.words es).length ≤ UInt32.size) {n : NodeRef} (hn : n ∈ Entry.nodes es) :
    t.text .anonymized n = Entry.number es n := by
  have hsize : t.size = (Entry.words es).length := by
    rw [h.size, Entry.words_eq, List.length_map]
  rw [h.text_eq (hsize ▸ hfew) (List.mem_map_of_mem hn), Entry.number, Entry.idxOf_words]

end IdentityTable

/-! ### Raw identities -/

namespace Pass

variable {σ : Type} [DocumentWriter σ]

/-- Raw identities are not numbered. -/
theorem identities_performAll_raw : ∀ (as : List Act) (p : Pass σ),
    (Act.performAll .raw as p).2.identities = p.identities
  | [], _ => rfl
  | a :: as, p => by
    have hact : (a.perform .raw p).2.identities = p.identities := by
      cases a with
      | call c => exact identities_call c p
      | identity n => exact identities_call _ p
      | move | fail => rfl
    rw [Act.performAll, List.map_cons, all]
    split
    · next q hq =>
      rw [hq] at hact
      exact (identities_performAll_raw as q).trans hact
    · next q hq =>
      rw [hq] at hact
      exact hact

end Pass

namespace Session

variable (ctx : Context) (root : DeclId) (opts : Options)

/-- A document with raw identities leaves the numbering of its session alone, whatever it is written
into. -/
theorem identities_write_raw {σ : Type} [DocumentWriter σ] (s : Session) (w : σ) :
    (s.write ctx root { opts with identityMode := .raw } w).2.1.identities = s.identities := by
  have hpass : (runPass ctx root { opts with identityMode := .raw } ⟨{}, s.identities, w⟩).2.identities
      = s.identities := by
    have hsite := Pass.identities_performAll_raw (ctx.acts root { opts with identityMode := .raw })
      (⟨{}, s.identities, w⟩ : Pass σ)
    rw [runPass, Pass.all, site_eq_acts]
    split
    · next q hq =>
      rw [hq] at hsite
      rw [Pass.all_singleton]
      split <;> exact hsite
    · next q hq =>
      rw [hq] at hsite
      exact hsite
  rcases write_cases ctx root { opts with identityMode := .raw } s w with
    ⟨e, hrefused⟩ | ⟨-, result, p, hrun, hwrite⟩
  · rw [hrefused]
  · rw [hrun] at hpass
    rw [hwrite]
    exact hpass

/-- What a fresh session leaves behind of a document in a fresh recorder. -/
def record (mode : IdentityMode) : Except ExportError Unit × Session × Recorder :=
  ({} : Session).write ctx root { opts with identityMode := mode } ({} : Recorder)

/-- A document with numbered identities is the document with raw identities, renamed by first
appearance. Both come to the same and log the same entries, with the words of nodes in the one and
their indices in the other, as long as there are numbers for all words. -/
theorem write_anonymized :
    (record ctx root opts .anonymized).1 = (record ctx root opts .raw).1 ∧
    (record ctx root opts .anonymized).2.2.events.size
      = (record ctx root opts .raw).2.2.events.size ∧
    (record ctx root opts .raw).2.2.events.toList
      = (ctx.entries root opts).map (Entry.toEvent NodeRef.pointer) ∧
    ((Entry.words (ctx.entries root opts)).length ≤ UInt32.size →
      (record ctx root opts .anonymized).2.2.events.toList
        = (ctx.entries root opts).map (Entry.toEvent (Entry.number (ctx.entries root opts)))) ∧
    (∀ n ∈ Entry.nodes (ctx.entries root opts), ∀ m ∈ Entry.nodes (ctx.entries root opts),
      Entry.number (ctx.entries root opts) n = Entry.number (ctx.entries root opts) m
        ↔ n.pointer = m.pointer) ∧
    ((Entry.nodes (ctx.entries root opts)).map (Entry.number (ctx.entries root opts))).eraseDups
      = (List.range (Entry.words (ctx.entries root opts)).length).map toString ∧
    ∀ (σ : Type) [DocumentWriter σ] (s : Session) (w : σ),
      (s.write ctx root { opts with identityMode := .raw } w).2.1.identities = s.identities := by
  obtain ⟨hrawResult, -, hrawEvents⟩ :=
    recorded_write ctx root { opts with identityMode := .raw } (s := {}) rfl
  obtain ⟨hresult, htable, hevents⟩ :=
    recorded_write ctx root { opts with identityMode := .anonymized } (s := {}) rfl
  rw [Context.outcome_identityMode] at hrawResult hresult
  rw [Context.entries_identityMode] at hrawEvents htable hevents
  refine ⟨hresult.trans hrawResult.symm, ?_, hrawEvents, fun hfew => ?_,
    fun n hn m _ => Entry.number_inj _ hn, Entry.eraseDups_numbers _,
    fun σ _ s w => identities_write_raw ctx root opts s w⟩
  · have hsize : ∀ {r : Recorder} {text : NodeRef → String},
        r.events.toList = (ctx.entries root opts).map (Entry.toEvent text) →
        r.events.size = (ctx.entries root opts).length := by
      intro r text h
      rw [← Array.length_toList, h, List.length_map]
    exact (hsize hevents).trans (hsize hrawEvents).symm
  · have hnumbers : (record ctx root opts .anonymized).2.1.identities.Numbers
        ((Entry.nodes (ctx.entries root opts)).map NodeRef.identity) := by
      rw [record, htable]
      exact IdentityTable.numbers_empty.renderAll
    refine hevents.trans (Entry.toEvent_congr _ fun n hn => ?_)
    exact IdentityTable.text_of_numbers hnumbers hfew hn

/-- The eleven identities of a unit are numbered from zero to ten. The fourth is that of no node, and
stands in several places. -/
theorem write_anonymized_functionUnit :
    (Entry.words (functionUnit.entries ⟨0⟩ {})).length ≤ UInt32.size ∧
    (record functionUnit ⟨0⟩ {} .anonymized).1 = .ok () ∧
    (record functionUnit ⟨0⟩ {} .anonymized).2.2.events.toList
      = (functionUnit.entries ⟨0⟩ {}).map
        (Entry.toEvent (Entry.number (functionUnit.entries ⟨0⟩ {}))) ∧
    (Entry.nodes (functionUnit.entries ⟨0⟩ {})).map (Entry.number (functionUnit.entries ⟨0⟩ {}))
      = ["0", "1", "2", "3", "4", "3", "5", "6", "7", "3", "8", "3", "9", "10", "3"] := by
  have hfew : (Entry.words (functionUnit.entries ⟨0⟩ {})).length ≤ UInt32.size := by
    decide +kernel
  have hraw : (record functionUnit ⟨0⟩ {} .raw).1 = .ok () := by
    obtain ⟨s', r, hwrite⟩ := exists_write_functionUnit
    rw [record]
    exact congrArg Prod.fst hwrite
  obtain ⟨hresult, -, -, hevents, -⟩ := write_anonymized functionUnit ⟨0⟩ {}
  refine ⟨hfew, hresult.trans hraw, hevents hfew, ?_⟩
  decide +kernel

end Session

end SyntaxExport
