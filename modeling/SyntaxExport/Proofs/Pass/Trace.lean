import SyntaxExport.Proofs.Document.Trace
import SyntaxExport.Proofs.Pass.Record

/-!
# Traces of passes

Whatever its writer answers, a pass makes the calls of the first entries of its script, with the texts
of identities from the table that it ends with (`Pass.hands_performAll`). A pass that comes to its end
makes the same calls again from the table that it left, and leaves it alone
(`Pass.performAll_again`).
-/

namespace SyntaxExport

namespace IdentityTable

variable {mode : IdentityMode} {t t' : IdentityTable}

/-- A later table has nothing to add for an identity. -/
theorem snd_render_of_extends {i : NodeIdentity} (h : (t.render mode i).2.Extends t') :
    (t'.render mode i).2 = t' := by
  cases mode with
  | raw => rfl
  | anonymized =>
    have hi : t'.get? i = some (t.intern i).1 := h i _ (get?_intern t i)
    simp only [render, intern_of_some hi]

theorem text_render (n : NodeRef) : (t.render mode n.identity).2.text mode n = t.text mode n :=
  render_of_extends (.refl _)

section Asked

variable {ns : List NodeRef} {n : NodeRef}

/-- A table that was asked for nodes goes on from one that was asked for any of them last. -/
theorem exists_render_extends (mode : IdentityMode) : ∀ {ns : List NodeRef} {t : IdentityTable},
    n ∈ ns → ∃ t₀ : IdentityTable, (t₀.render mode n.identity).2.Extends (t.renderAll mode ns)
  | m :: ns, t, hn => by
    rcases List.mem_cons.mp hn with rfl | hn
    · exact ⟨t, extends_renderAll mode ns _⟩
    · obtain ⟨t₀, h⟩ := exists_render_extends mode (t := (t.render mode m.identity).2) hn
      exact ⟨t₀, h⟩

variable (hn : n ∈ ns) (h : (t.renderAll mode ns).Extends t')

include hn h

/-- The texts of nodes that a table was asked for are those of every later table. -/
theorem text_of_extends : (t.renderAll mode ns).text mode n = t'.text mode n := by
  obtain ⟨t₀, h₀⟩ := exists_render_extends mode (t := t) hn
  exact (render_of_extends h₀).trans (render_of_extends (h₀.trans h)).symm

theorem snd_render_of_mem : (t'.render mode n.identity).2 = t' := by
  obtain ⟨t₀, h₀⟩ := exists_render_extends mode (t := t) hn
  exact snd_render_of_extends (h₀.trans h)

end Asked

/-- Nodes that a table was asked for change no later table. -/
theorem renderAll_of_extends {ns : List NodeRef} (h : (t.renderAll mode ns).Extends t') :
    ∀ {ns' : List NodeRef}, ns' ⊆ ns → t'.renderAll mode ns' = t'
  | [], _ => rfl
  | n :: ns', hsub => by
    have hn : n ∈ ns := hsub List.mem_cons_self
    have hrest : t'.renderAll mode ns' = t' :=
      renderAll_of_extends h fun m hm => hsub (List.mem_cons_of_mem n hm)
    rw [renderAll, List.foldl_cons, snd_render_of_mem hn h]
    exact hrest

theorem renderAll_append (ns ns' : List NodeRef) :
    t.renderAll mode (ns ++ ns') = (t.renderAll mode ns).renderAll mode ns' :=
  List.foldl_append

end IdentityTable

theorem Entry.nodes_append (es es' : List Entry) : nodes (es ++ es') = nodes es ++ nodes es' :=
  List.filterMap_append

theorem Act.entries_head (a : Act) (as : List Act) : entries [a] <+: entries (a :: as) := by
  cases a with
  | call | identity => exact ⟨entries as, rfl⟩
  | move | fail => exact List.nil_prefix

theorem Act.entries_cons {a : Act} (as : List Act) (h : ∀ e, a ≠ .fail e) :
    entries (a :: as) = entries [a] ++ entries as := by
  cases a with
  | call | identity | move => rfl
  | fail e => exact absurd rfl (h e)

namespace Pass

variable {σ : Type} {mode : IdentityMode}

/-! ### Entries that reach the writer -/

/-- Between two states of a pass, entries were handed to the writer. -/
structure Hands (mode : IdentityMode) (es : List Entry) (p q : Pass (Traced σ)) : Prop where
  identities : q.identities = p.identities.renderAll mode (Entry.nodes es)
  events : q.writer.events
    = p.writer.events ++ es.map (Entry.toEvent (q.identities.text mode))

theorem Hands.of_same {p q : Pass (Traced σ)} (hidentities : q.identities = p.identities)
    (hevents : q.writer.events = p.writer.events) : Hands mode [] p q :=
  ⟨hidentities, hevents.trans (List.append_nil _).symm⟩

theorem Hands.congr_right {es : List Entry} {p q r : Pass (Traced σ)} (h : Hands mode es p q)
    (hidentities : r.identities = q.identities) (hevents : r.writer.events = q.writer.events) :
    Hands mode es p r where
  identities := hidentities.trans h.identities
  events := by rw [hevents, h.events, hidentities]

theorem Hands.append {es es' : List Entry} {p q r : Pass (Traced σ)} (h : Hands mode es p q)
    (h' : Hands mode es' q r) : Hands mode (es ++ es') p r where
  identities := by
    rw [h'.identities, h.identities, Entry.nodes_append, IdentityTable.renderAll_append]
  events := by
    -- the texts of the first entries do not change any more
    have hextends : (p.identities.renderAll mode (Entry.nodes es)).Extends r.identities := by
      rw [h'.identities, h.identities]
      exact IdentityTable.extends_renderAll mode _ _
    have htexts : es.map (Entry.toEvent (q.identities.text mode))
        = es.map (Entry.toEvent (r.identities.text mode)) := by
      refine Entry.toEvent_congr es fun n hn => ?_
      rw [h.identities, IdentityTable.text_of_extends hn hextends]
    rw [h'.events, h.events, htexts, List.map_append, List.append_assoc]

variable [DocumentWriter σ]

/-- A call reaches the writer, whatever the answer is. -/
theorem events_call (c : Call) (p : Pass (Traced σ)) :
    (call c p).2.writer.events = p.writer.events ++ [.ofCall c] := by
  rw [writer_call, Traced.events_call]

theorem hands_perform (a : Act) (p : Pass (Traced σ)) :
    Hands mode (Act.entries [a]) p (a.perform mode p).2 := by
  cases a with
  | call c => exact ⟨identities_call c p, events_call c p⟩
  | identity n =>
    have htable := identities_identity mode n p
    have hevents : ((Act.identity n).perform mode p).2.writer.events
        = p.writer.events ++ [.scalar (.string (p.identities.text mode n))] := events_call _ _
    refine ⟨htable, ?_⟩
    rw [hevents, htable, ← IdentityTable.text_render]
    rfl
  | move | fail => exact .of_same rfl rfl

/-- A pass hands over the first entries of its acts, and all of them if it does not fail. -/
theorem hands_performAll (mode : IdentityMode) : ∀ (as : List Act) (p : Pass (Traced σ)),
    ∃ es : List Entry, es <+: Act.entries as ∧ Hands mode es p (Act.performAll mode as p).2 ∧
      ((Act.performAll mode as p).1 = .ok () → es = Act.entries as)
  | [], p => ⟨[], List.prefix_rfl, .of_same rfl rfl, fun _ => rfl⟩
  | a :: as, p => by
    have hone : Hands mode (Act.entries [a]) p (a.perform mode p).2 := hands_perform a p
    rw [Act.performAll, List.map_cons, all]
    cases hact : a.perform mode p with
    | mk result q =>
      rw [hact] at hone
      cases result with
      | ok =>
        have hentries : Act.entries (a :: as) = Act.entries [a] ++ Act.entries as := by
          refine Act.entries_cons as ?_
          rintro e rfl
          cases hact
        obtain ⟨es, hfirst, hhands, hwhole⟩ := hands_performAll mode as q
        rw [hentries]
        exact ⟨Act.entries [a] ++ es, (List.prefix_append_right_inj _).mpr hfirst,
          hone.append hhands, fun hok => congrArg (Act.entries [a] ++ ·) (hwhole hok)⟩
      | error e => exact ⟨Act.entries [a], Act.entries_head a as, hone, fun h => by cases h⟩

/-! ### Passes again -/

theorem extends_perform (mode : IdentityMode) (a : Act) (p : Pass σ) :
    p.identities.Extends (a.perform mode p).2.identities := by
  cases a with
  | call c =>
    have hsame : ((Act.call c).perform mode p).2.identities = p.identities := identities_call c p
    rw [hsame]
    exact .refl _
  | identity n =>
    rw [identities_identity]
    exact IdentityTable.extends_render _ _ _
  | move | fail => exact .refl _

theorem extends_performAll (mode : IdentityMode) : ∀ (as : List Act) (p : Pass σ),
    p.identities.Extends (Act.performAll mode as p).2.identities
  | [], p => .refl _
  | a :: as, p => by
    have hone := extends_perform mode a p
    rw [Act.performAll, List.map_cons, all]
    split
    · next q hact =>
      rw [hact] at hone
      exact hone.trans (extends_performAll mode as q)
    · next q hact =>
      rw [hact] at hone
      exact hone

/-- A call does not depend on the numbering. -/
theorem call_again {c : Call} {cursor : LocationCursor} {t t' : IdentityTable} {w : σ} {q : Pass σ}
    (h : call c ⟨cursor, t, w⟩ = (.ok (), q)) :
    call c ⟨cursor, t', w⟩ = (.ok (), ⟨q.cursor, t', q.writer⟩) := by
  rw [call] at h ⊢
  split at h
  · cases h
    rfl
  · cases congrArg Prod.fst h

variable {t : IdentityTable}

theorem perform_again {a : Act} {p q : Pass σ} (h : a.perform mode p = (.ok (), q))
    (ht : q.identities.Extends t) :
    a.perform mode ⟨p.cursor, t, p.writer⟩ = (.ok (), ⟨q.cursor, t, q.writer⟩) := by
  cases a with
  | call c => exact call_again h
  | identity n =>
    have htable := identities_identity mode n p
    rw [h] at htable
    rw [htable] at ht
    rw [perform_identity] at h
    -- the later table has the text that was written, and nothing to add
    have htext : t.text mode n = p.identities.text mode n := IdentityTable.render_of_extends ht
    rw [perform_identity, htext, IdentityTable.snd_render_of_extends ht]
    exact call_again h
  | move loc =>
    cases h
    rfl
  | fail e => cases h

/-- A pass that comes to its end does so again from every later table. -/
theorem performAll_again : ∀ {as : List Act} {p q : Pass σ},
    Act.performAll mode as p = (.ok (), q) → q.identities.Extends t →
    Act.performAll mode as ⟨p.cursor, t, p.writer⟩ = (.ok (), ⟨q.cursor, t, q.writer⟩)
  | [], p, q, h, _ => by
    cases h
    rfl
  | a :: as, p, q, h, ht => by
    rw [Act.performAll, List.map_cons, all] at h ⊢
    split at h
    · next p₁ hact =>
      have hrest : Act.performAll mode as p₁ = (.ok (), q) := h
      -- the first act is performed from a table that has its number, as the rest is
      have hlater := extends_performAll mode as p₁
      rw [hrest] at hlater
      rw [perform_again hact (hlater.trans ht)]
      exact performAll_again hrest ht
    · cases congrArg Prod.fst h

end Pass

end SyntaxExport
