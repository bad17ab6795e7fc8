import SyntaxExport.Proofs.Document.Log
import SyntaxExport.Proofs.Pass.Outline
import SyntaxExport.Proofs.Pass.Script

/-!
# Logs of passes

The log of a pass has the calls of its script in order, with the texts of identities in the places of
identities (`Pass.recorded_performAll`). The texts may be taken from the table that the pass ends with,
since no number changes after it was given.
-/

namespace SyntaxExport

/-! ### Entries -/

/-- An entry of a log, with an identity in the place of its text. -/
inductive Entry where
  | event (e : Event)
  | identity (n : NodeRef)
  deriving DecidableEq, Repr

namespace Entry

/-- The entry where nodes have the given texts. -/
def toEvent (text : NodeRef → String) : Entry → Event
  | .event e => e
  | .identity n => .scalar (.string (text n))

/-- The node whose identity stands in the place of an entry. -/
def node? : Entry → Option NodeRef
  | .event _ => none
  | .identity n => some n

/-- The nodes whose identities are logged, in order. -/
def nodes (es : List Entry) : List NodeRef :=
  es.filterMap node?

/-- A log depends on texts only as far as nodes are in it. -/
theorem toEvent_congr (es : List Entry) {text text' : NodeRef → String}
    (h : ∀ n ∈ nodes es, text n = text' n) : es.map (toEvent text) = es.map (toEvent text') := by
  refine List.map_congr_left fun e he => ?_
  cases e with
  | event e => rfl
  | identity n => rw [toEvent, toEvent, h n (List.mem_filterMap.mpr ⟨.identity n, he, rfl⟩)]

end Entry

namespace Act

/-- What acts log, up to the first that fails. -/
def entries : List Act → List Entry
  | [] => []
  | .call c :: as => .event (.ofCall c) :: entries as
  | .identity n :: as => .identity n :: entries as
  | .move _ :: as => entries as
  | .fail _ :: _ => []

/-- What acts come to, unless the writer rejects one. -/
def outcome : List Act → Except ExportError Unit
  | [] => .ok ()
  | .fail e :: _ => .error e
  | _ :: as => outcome as

end Act

/-! ### Tables -/

namespace IdentityTable

/-- The table after the texts of nodes are asked for one by one. -/
def renderAll (mode : IdentityMode) (t : IdentityTable) (ns : List NodeRef) : IdentityTable :=
  ns.foldl (fun t n => (t.render mode n.identity).2) t

theorem extends_renderAll (mode : IdentityMode) : ∀ (ns : List NodeRef) (t : IdentityTable),
    t.Extends (t.renderAll mode ns)
  | [], t => .refl t
  | n :: ns, t => (extends_render t mode n.identity).trans (extends_renderAll mode ns _)

theorem renderAll_raw (t : IdentityTable) : ∀ ns : List NodeRef, t.renderAll .raw ns = t
  | [] => rfl
  | _ :: ns => renderAll_raw t ns

end IdentityTable

/-! ### Logs -/

namespace Pass

section Call

variable {σ : Type} [DocumentWriter σ]

theorem identities_call (c : Call) (p : Pass σ) : (call c p).2.identities = p.identities := by
  rw [call]
  split <;> rfl

theorem writer_call (c : Call) (p : Pass σ) :
    (call c p).2.writer = (DocumentWriter.call c p.writer).2 := by
  rw [call]
  split <;> next h => rw [h]

/-- The text of an identity is asked for before the call, which may still be rejected. -/
theorem perform_identity (mode : IdentityMode) (n : NodeRef) (p : Pass σ) :
    (Act.identity n).perform mode p = call (.leaf (.string (p.identities.text mode n)))
      ⟨p.cursor, (p.identities.render mode n.identity).2, p.writer⟩ := rfl

theorem identities_identity (mode : IdentityMode) (n : NodeRef) (p : Pass σ) :
    ((Act.identity n).perform mode p).2.identities = (p.identities.render mode n.identity).2 :=
  identities_call _ _

end Call

variable {mode : IdentityMode}

/-- A recorder logs every call that it does not reject. -/
theorem recorded_call {c : Call} {p : Pass Recorder}
    (h : ∀ e, (call c p).1 ≠ .error (.write e)) : ∃ r : Recorder,
      call c p = (.ok (), ⟨p.cursor, p.identities, r⟩)
        ∧ r.events.toList = p.writer.events.toList ++ [.ofCall c] := by
  obtain ⟨cursor, identities, writer⟩ := p
  cases hcall : (DocumentWriter.call c writer : Except WriteError Unit × Recorder) with
  | mk result r =>
    cases result with
    | error e =>
      refine absurd ?_ (h e)
      rw [call, hcall]
    | ok =>
      refine ⟨r, by rw [call, hcall], ?_⟩
      have hlog := Recorder.events_of_performs (Performs.cons hcall (Performs.nil r))
      exact hlog

/-- An act that is not rejected goes on with the next. -/
theorem performAll_cons_of_ok {a : Act} {p q : Pass Recorder} (as : List Act)
    (h : a.perform mode p = (.ok (), q)) : Act.performAll mode (a :: as) p = Act.performAll mode as q := by
  rw [Act.performAll, List.map_cons, all, h]
  rfl

/-- Parts of a pass that no writer stops do not let the first be stopped by one. -/
theorem ne_write_of_all_cons {σ : Type} {step : PassStep σ} {steps : List (PassStep σ)} {p : Pass σ}
    (h : ∀ e, (all (step :: steps) p).1 ≠ .error (.write e)) :
    ∀ e, (step p).1 ≠ .error (.write e) := by
  intro e he
  refine h e ?_
  rw [all]
  split
  · next hok =>
    rw [hok] at he
    cases he
  · next herror =>
    rw [herror] at he
    exact he

/-- What a pass that performs acts leaves behind, unless a call is rejected. -/
theorem recorded_performAll : ∀ {as : List Act} {p : Pass Recorder},
    (∀ e, (Act.performAll mode as p).1 ≠ .error (.write e)) →
    (Act.performAll mode as p).1 = Act.outcome as
    ∧ (Act.performAll mode as p).2.identities
      = p.identities.renderAll mode (Entry.nodes (Act.entries as))
    ∧ (Act.performAll mode as p).2.writer.events.toList = p.writer.events.toList
      ++ (Act.entries as).map (Entry.toEvent ((Act.performAll mode as p).2.identities.text mode))
  | [], p, _ => ⟨rfl, rfl, (List.append_nil _).symm⟩
  | .fail e :: as, p, _ => ⟨rfl, rfl, (List.append_nil _).symm⟩
  | .move loc :: as, p, h => by
    have hmoved : ∀ e, (Act.performAll mode as { p with cursor := p.cursor.advance loc }).1
        ≠ .error (.write e) := h
    have hrest := recorded_performAll hmoved
    exact hrest
  | .call c :: as, p, h => by
    obtain ⟨r, hcall, hevents⟩ := recorded_call (ne_write_of_all_cons h)
    have hact : (Act.call c).perform mode p = (.ok (), ⟨p.cursor, p.identities, r⟩) := hcall
    rw [performAll_cons_of_ok as hact] at h ⊢
    obtain ⟨hresult, hidentities, hrest⟩ := recorded_performAll h
    refine ⟨hresult, hidentities, ?_⟩
    rw [hrest, hevents, List.append_assoc]
    rfl
  | .identity n :: as, p, h => by
    have hperform : (Act.identity n).perform mode p
        = call (.leaf (.string (p.identities.render mode n.identity).1))
          ⟨p.cursor, (p.identities.render mode n.identity).2, p.writer⟩ := perform_identity mode n p
    have hone := ne_write_of_all_cons h
    rw [hperform] at hone
    obtain ⟨r, hcall, hevents⟩ := recorded_call hone
    rw [performAll_cons_of_ok as (hperform.trans hcall)] at h ⊢
    obtain ⟨hresult, hidentities, hrest⟩ := recorded_performAll h
    refine ⟨hresult, hidentities, ?_⟩
    -- the number that was written is the one in the last table
    have hextends : (p.identities.render mode n.identity).2.Extends
        (Act.performAll mode as ⟨p.cursor, (p.identities.render mode n.identity).2, r⟩).2.identities := by
      rw [hidentities]
      exact IdentityTable.extends_renderAll mode _ _
    have htext := IdentityTable.render_of_extends hextends
    rw [hrest, hevents, List.append_assoc, Act.entries, List.map_cons, Entry.toEvent,
      IdentityTable.text, htext]
    rfl

end Pass

end SyntaxExport
