import SyntaxExport.Proofs.Lifecycle
import SyntaxExport.Proofs.Pass.Lockstep
import SyntaxExport.Proofs.Pass.Trace
import SyntaxExport.Proofs.Renumbering

/-!
# Series of documents

Documents that are written in one session share a numbering, whatever writers take them and whether
or not they come to their ends. It numbers the identities by first appearance in all the documents
with numbered identities, put one after the other, and no number changes once it was given. So a
document that is written twice in a row is the same both times (`Session.series_numbered`).
-/

namespace SyntaxExport

/-! ### One document -/

namespace Session

variable {σ : Type} [DocumentWriter σ] (ctx : Context) (root : DeclId) (opts : Options)

/-- The end of the document hands nothing over. -/
theorem hands_runPass (ids : IdentityTable) (w : Traced σ) : ∃ es : List Entry,
    es <+: Act.entries (ctx.acts root opts) ∧
    Pass.Hands opts.identityMode es ⟨{}, ids, w⟩ (runPass ctx root opts ⟨{}, ids, w⟩).2 ∧
    ((runPass ctx root opts ⟨{}, ids, w⟩).1 = .ok () → es = Act.entries (ctx.acts root opts)) := by
  obtain ⟨es, hfirst, hhands, hwhole⟩ :=
    Pass.hands_performAll opts.identityMode (ctx.acts root opts) ⟨{}, ids, w⟩
  refine ⟨es, hfirst, ?_⟩
  rw [runPass, Pass.all, site_eq_acts]
  cases hperform : Act.performAll opts.identityMode (ctx.acts root opts) ⟨{}, ids, w⟩ with
  | mk result q =>
    rw [hperform] at hhands hwhole
    cases result with
    | error e => exact ⟨hhands, fun h => by cases h⟩
    | ok =>
      have hevents := Traced.events_finish q.writer
      simp only [Pass.all_singleton]
      split
      · next w' hw =>
        rw [hw] at hevents
        exact ⟨hhands.congr_right rfl hevents, fun _ => hwhole rfl⟩
      · next e w' hw =>
        rw [hw] at hevents
        exact ⟨hhands.congr_right rfl hevents, fun h => by cases h⟩

/-- A document hands over its first entries, with the texts of the table that it leaves, and all of
them if it succeeds. -/
theorem exists_handed (s : Session) (w : σ) : ∃ es : List Entry, es <+: ctx.entries root opts ∧
    (s.write ctx root opts ({ writer := w } : Traced σ)).2.1.identities
      = s.identities.renderAll opts.identityMode (Entry.nodes es) ∧
    (s.write ctx root opts ({ writer := w } : Traced σ)).2.2.events
      = es.map (Entry.toEvent
        ((s.write ctx root opts ({ writer := w } : Traced σ)).2.1.identities.text opts.identityMode)) ∧
    ((s.write ctx root opts ({ writer := w } : Traced σ)).1 = .ok () →
      es = ctx.entries root opts) := by
  rcases write_cases ctx root opts s ({ writer := w } : Traced σ) with
    ⟨e, hrefused⟩ | ⟨hcheck, result, p, hrun, hwrite⟩
  · rw [hrefused]
    exact ⟨[], List.nil_prefix, rfl, rfl, fun h => by cases h⟩
  have hentries : ctx.entries root opts = Act.entries (ctx.acts root opts) := by
    rw [Context.entries, hcheck]
  obtain ⟨es, hfirst, hhands, hwhole⟩ :=
    hands_runPass ctx root opts s.identities ({ writer := w } : Traced σ)
  rw [hrun] at hhands hwhole
  rw [hwrite, hentries]
  exact ⟨es, hfirst, hhands.identities, hhands.events, hwhole⟩

variable {ctx root opts}

/-- A pass that succeeds does so again with the numbers that it gave. -/
theorem runPass_again {ids : IdentityTable} {w : σ} {p : Pass σ}
    (h : runPass ctx root opts ⟨{}, ids, w⟩ = (.ok (), p)) :
    runPass ctx root opts ⟨{}, p.identities, w⟩ = (.ok (), p) := by
  rw [runPass, Pass.all, site_eq_acts] at h ⊢
  split at h
  · next q hq =>
    simp only [Pass.all_singleton] at h
    split at h
    · next w' hfinish =>
      cases h
      have hsame := Pass.performAll_again hq (.refl q.identities)
      rw [hsame]
      simp only [Pass.all_singleton, hfinish]
    · cases congrArg Prod.fst h
  · cases congrArg Prod.fst h

/-- A document that succeeds is written once more with the same result, and leaves the session as it
is. -/
theorem write_again {s s' : Session} {w w' : σ} (h : s.write ctx root opts w = (.ok (), s', w')) :
    s'.write ctx root opts w = (.ok (), s', w') := by
  rcases write_cases ctx root opts s w with ⟨e, hrefused⟩ | ⟨hcheck, result, p, hrun, hwrite⟩
  · cases congrArg Prod.fst (h.symm.trans hrefused)
  cases h.symm.trans hwrite
  rw [write, if_neg (by simp [Except.isOk, Except.toBool]), hcheck]
  simp only [runPass_again hrun]
  rfl

end Session

namespace Export

variable (e : Export) (s : Session)

/-- The same document, into another writer. -/
def into {τ : Type} [DocumentWriter τ] (w : τ) : Export where
  ctx := e.ctx
  root := e.root
  opts := e.opts
  writer := w

/-- The events of the calls that the document makes. -/
def events : List Event :=
  (s.write e.ctx e.root e.opts ({ writer := e.writer } : Traced e.σ)).2.2.events

/-- The entries whose calls the document makes, also the one that ends it if the writer rejects it. -/
def entries : List Entry :=
  (e.ctx.entries e.root e.opts).take (e.events s).length

/-- The identities that the document numbers, in its order. -/
def numbered : List NodeIdentity :=
  match e.opts.identityMode with
  | .raw => []
  | .anonymized => (Entry.nodes (e.entries s)).map NodeRef.identity

/-- With a trace, the document comes to the same. -/
theorem traced :
    (s.write e.ctx e.root e.opts ({ writer := e.writer } : Traced e.σ)).1 = e.result s ∧
    (s.write e.ctx e.root e.opts ({ writer := e.writer } : Traced e.σ)).2.1 = e.after s := by
  obtain ⟨hresult, hafter, -⟩ := Traced.lockstep.write e.ctx e.root e.opts s
    (w := ({ writer := e.writer } : Traced e.σ)) rfl
  exact ⟨hresult, hafter⟩

/-- What a document hands over, as its entries. -/
theorem handed : (e.after s).identities
      = s.identities.renderAll e.opts.identityMode (Entry.nodes (e.entries s)) ∧
    e.events s
      = (e.entries s).map (Entry.toEvent ((e.after s).identities.text e.opts.identityMode)) ∧
    (e.result s = .ok () → e.entries s = e.ctx.entries e.root e.opts) := by
  obtain ⟨es, hfirst, hidentities, hevents, hwhole⟩ :=
    Session.exists_handed e.ctx e.root e.opts s e.writer
  obtain ⟨hresult, hafter⟩ := e.traced s
  -- one event for each entry that was handed over
  have hlength : (e.events s).length = es.length := by
    rw [events, hevents, List.length_map]
  have hes : e.entries s = es := by
    rw [entries, hlength]
    exact (List.prefix_iff_eq_take.mp hfirst).symm
  rw [hafter] at hidentities hevents
  rw [hresult] at hwhole
  rw [hes]
  exact ⟨hidentities, hevents, hwhole⟩

variable {e s} (h : e.result s = .ok ())

include h

/-- A document that succeeds does so once more, and changes nothing then. -/
theorem again : e.result (e.after s) = .ok () ∧ e.events (e.after s) = e.events s ∧
    e.written (e.after s) = e.written s ∧ e.after (e.after s) = e.after s := by
  have hwrite : s.write e.ctx e.root e.opts e.writer = (.ok (), e.after s, e.written s) :=
    Prod.ext h rfl
  have htraced : s.write e.ctx e.root e.opts ({ writer := e.writer } : Traced e.σ)
      = (.ok (), e.after s, _) :=
    Prod.ext ((e.traced s).1.trans h) (Prod.ext (e.traced s).2 rfl)
  have hagain := Session.write_again hwrite
  have hevents := Session.write_again htraced
  exact ⟨congrArg (·.1) hagain, congrArg (·.2.2.events) hevents, congrArg (·.2.2) hagain,
    congrArg (·.2.1) hagain⟩

/-- A document that succeeded numbers nothing in another writer, and makes the same calls as far as
it comes there. -/
theorem again_into {τ : Type} [DocumentWriter τ] (w : τ) :
    ((e.into w).after (e.after s)).identities = (e.after s).identities ∧
    (e.into w).events (e.after s) <+: e.events s := by
  obtain ⟨hidentities, hevents, hwhole⟩ := e.handed s
  obtain ⟨hidentities', hevents', -⟩ := (e.into w).handed (e.after s)
  have hfirst : (e.into w).entries (e.after s) <+: e.entries s := by
    rw [hwhole h]
    exact List.take_prefix _ _
  have htable : ((e.into w).after (e.after s)).identities = (e.after s).identities := by
    have hextends : (s.identities.renderAll e.opts.identityMode (Entry.nodes (e.entries s))).Extends
        (e.after s).identities := hidentities ▸ .refl _
    rw [hidentities']
    exact IdentityTable.renderAll_of_extends hextends (hfirst.filterMap Entry.node?).subset
  refine ⟨htable, ?_⟩
  rw [hevents, hevents', htable]
  exact hfirst.map _

end Export

/-! ### Many documents -/

/-- The text of a node: its word, or its place among the identities that were numbered. -/
def IdentityMode.textAmong (is : List NodeIdentity) : IdentityMode → NodeRef → String
  | .raw, n => n.pointer
  | .anonymized, n => toString (is.eraseDups.idxOf n.identity)

namespace Session

variable (s : Session)

/-- The session after documents, whatever they come to. -/
def writeAll (s : Session) : List Export → Session
  | [] => s
  | e :: es => (e.after s).writeAll es

/-- The identities that documents number, one document after the other. -/
def numbered (s : Session) : List Export → List NodeIdentity
  | [] => []
  | e :: es => e.numbered s ++ (e.after s).numbered es

theorem writeAll_append (es es' : List Export) : ∀ s : Session,
    s.writeAll (es ++ es') = (s.writeAll es).writeAll es' := by
  induction es with
  | nil => exact fun _ => rfl
  | cons e es ih => exact fun s => ih (e.after s)

theorem numbered_append (es es' : List Export) : ∀ s : Session,
    s.numbered (es ++ es') = s.numbered es ++ (s.writeAll es).numbered es' := by
  induction es with
  | nil => exact fun _ => rfl
  | cons e es ih =>
    intro s
    rw [List.cons_append, numbered, numbered, ih, writeAll, List.append_assoc]

/-- No document changes a number. -/
theorem extends_after (e : Export) : s.identities.Extends (e.after s).identities := by
  rw [(e.handed s).1]
  exact IdentityTable.extends_renderAll _ _ _

theorem extends_writeAll (es : List Export) : ∀ s : Session,
    s.identities.Extends (s.writeAll es).identities := by
  induction es with
  | nil => exact fun s => .refl _
  | cons e es ih => exact fun s => (extends_after s e).trans (ih _)

variable {s}

/-- A document gives numbers to its identities after those that have one. -/
theorem numbers_after {is : List NodeIdentity} (e : Export) (h : s.identities.Numbers is) :
    (e.after s).identities.Numbers (is ++ e.numbered s) := by
  rw [(e.handed s).1, Export.numbered]
  cases e.opts.identityMode with
  | raw =>
    rw [IdentityTable.renderAll_raw, List.append_nil]
    exact h
  | anonymized => exact h.renderAll

theorem numbers_writeAll (es : List Export) : ∀ {s : Session} {is : List NodeIdentity},
    s.identities.Numbers is → (s.writeAll es).identities.Numbers (is ++ s.numbered es) := by
  induction es with
  | nil =>
    intro s is h
    rw [numbered, List.append_nil]
    exact h
  | cons e es ih =>
    intro s is h
    rw [numbered, ← List.append_assoc]
    exact ih (numbers_after e h)

/-- A document shows the numbers of the table that the last document leaves. -/
theorem events_eq {before after : List Export} {e : Export}
    (h : (s.writeAll (before ++ e :: after)).identities.Numbers (s.numbered (before ++ e :: after)))
    (hfew : (s.writeAll (before ++ e :: after)).identities.size ≤ UInt32.size) :
    e.events (s.writeAll before) = (e.entries (s.writeAll before)).map
      (Entry.toEvent (e.opts.identityMode.textAmong (s.numbered (before ++ e :: after)))) := by
  obtain ⟨htable, hevents, -⟩ := e.handed (s.writeAll before)
  rw [hevents]
  refine Entry.toEvent_congr _ fun n hn => ?_
  cases hmode : e.opts.identityMode with
  | raw => rfl
  | anonymized =>
    have hnumbered : n.identity ∈ s.numbered (before ++ e :: after) := by
      have hown : n.identity ∈ e.numbered (s.writeAll before) := by
        rw [Export.numbered, hmode]
        exact List.mem_map_of_mem hn
      rw [numbered_append, numbered]
      exact List.mem_append_right _ (List.mem_append_left _ hown)
    have hextends : (e.after (s.writeAll before)).identities.Extends
        (s.writeAll (before ++ e :: after)).identities := by
      rw [writeAll_append]
      exact extends_writeAll after _
    -- the number was written from an earlier table, and the last one still has it
    rw [htable, hmode] at hextends ⊢
    rw [IdentityTable.text_of_extends hn hextends, h.text_eq hfew hnumbered]
    rfl

/-- Documents that are written in a session without numbers get their numbers by first appearance in
all of them, as long as there are numbers for all identities. No number changes once it was given, and
a document that succeeds is the same when it is written once more. -/
theorem series_numbered (s : Session) (es : List Export) (hempty : s.identities = .empty)
    (hfew : (s.writeAll es).identities.size ≤ UInt32.size) :
    Set.BijOn (s.writeAll es).identities.get? {i | i ∈ s.numbered es}
      (some '' {n | n < (s.writeAll es).identities.size}) ∧
    (∀ (i : NodeIdentity) (n : Nat), (s.writeAll es).identities.get? i = some n
      ↔ (s.numbered es).eraseDups[n]? = some i) ∧
    (∀ before after : List Export, es = before ++ after →
      (s.writeAll before).identities.Extends (s.writeAll es).identities) ∧
    (∀ (before : List Export) (e : Export) (after : List Export), es = before ++ e :: after →
      e.events (s.writeAll before) = (e.entries (s.writeAll before)).map
        (Entry.toEvent (e.opts.identityMode.textAmong (s.numbered es))) ∧
      (e.result (s.writeAll before) = .ok () →
        e.entries (s.writeAll before) = e.ctx.entries e.root e.opts)) ∧
    ∀ (e : Export) (t : Session), e.result t = .ok () →
      (e.result (e.after t) = .ok () ∧ e.events (e.after t) = e.events t ∧
        e.written (e.after t) = e.written t ∧ e.after (e.after t) = e.after t) ∧
      ∀ (τ : Type) [DocumentWriter τ] (w : τ),
        ((e.into w).after (e.after t)).identities = (e.after t).identities ∧
        (e.into w).events (e.after t) <+: e.events t := by
  have hnumbers : (s.writeAll es).identities.Numbers (s.numbered es) := by
    have hstart : s.identities.Numbers [] := hempty ▸ IdentityTable.numbers_empty
    exact numbers_writeAll es hstart
  refine ⟨hnumbers.bijOn hfew, fun i n => hnumbers.get?_eq_some hfew, ?_, ?_,
    fun e t h => ⟨Export.again h, fun τ _ w => Export.again_into h w⟩⟩
  · rintro before after rfl
    rw [writeAll_append]
    exact extends_writeAll after _
  · rintro before e after rfl
    exact ⟨events_eq hnumbers hfew, (e.handed (s.writeAll before)).2.2⟩

/-! ### Documents for recorders -/

section Recorded

variable (ctx : Context) (root : DeclId)

/-- A document with numbers for a new recorder. -/
def recorded : Export where
  ctx := ctx
  root := root
  opts := { identityMode := .anonymized }
  writer := ({} : Recorder)

variable {ctx root} (hs : s.inUse = false)
  (h : ctx.outcome root { identityMode := .anonymized } = .ok ())

include hs h

/-- A new recorder takes a document without faults to its end. -/
theorem result_recorded : (recorded ctx root).result s = .ok () :=
  (recorded_write ctx root { identityMode := .anonymized } hs).1.trans h

theorem numbered_recorded : (recorded ctx root).numbered s
    = (Entry.nodes (ctx.entries root { identityMode := .anonymized })).map NodeRef.identity := by
  have hwhole := ((recorded ctx root).handed s).2.2 (result_recorded hs h)
  exact congrArg (fun es => (Entry.nodes es).map NodeRef.identity) hwhole

end Recorded

/-- A translation unit without declarations and one with a function. -/
def unitSeries : List Export :=
  [recorded { decls := #[{ kind := .translationUnit }] } ⟨0⟩, recorded functionUnit ⟨0⟩]

/-- The identities of the second unit are numbered after the two of the first, one of which is in both
units. -/
theorem series_numbered_unitSeries :
    (({} : Session).writeAll unitSeries).identities.size ≤ UInt32.size ∧
    (({} : Session).writeAll unitSeries).identities.get? (NodeRef.decl ⟨0⟩).identity = some 0 ∧
    (({} : Session).writeAll unitSeries).identities.get? (NodeRef.decl ⟨1⟩).identity = some 2 := by
  have hfirst : ({ decls := #[{ kind := .translationUnit }] } : Context).outcome ⟨0⟩
      { identityMode := .anonymized } = .ok () := rfl
  have hsecond : functionUnit.outcome ⟨0⟩ { identityMode := .anonymized } = .ok () := rfl
  have hfree := Export.inUse_after_of_ok (result_recorded (s := {}) rfl hfirst)
  have hnumbered : ({} : Session).numbered unitSeries = _ ++ (_ ++ []) :=
    congrArg₂ (· ++ ·) (numbered_recorded rfl hfirst)
      (congrArg (· ++ []) (numbered_recorded hfree hsecond))
  have hnumbers := numbers_writeAll (s := {}) unitSeries IdentityTable.numbers_empty
  have hfew : (({} : Session).writeAll unitSeries).identities.size ≤ UInt32.size := by
    rw [hnumbers.size, hnumbered]
    decide +kernel
  obtain ⟨-, hnumber, -⟩ := series_numbered {} unitSeries rfl hfew
  rw [hnumbered] at hnumber
  refine ⟨hfew, (hnumber _ _).mpr ?_, (hnumber _ _).mpr ?_⟩
  · decide +kernel
  · decide +kernel

end Session

end SyntaxExport
