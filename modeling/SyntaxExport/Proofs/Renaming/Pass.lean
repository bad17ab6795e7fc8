import SyntaxExport.Proofs.Identity.Extension
import SyntaxExport.Proofs.Identity.Word
import SyntaxExport.Proofs.Renaming.Nodes

/-!
# Passes over renamed nodes

Two passes run side by side, one over a context and one over a context with its renamed nodes. What
a pass carries from one place to the next is the cursor, whose file is looked at for nothing but
equality, and the table, which knows identities for nothing but what was seen before. Both are the same
up to the renaming (`Pass.Renamed`), and the writers take the same calls. A part of a pass that
succeeds succeeds on the other side as well (`PassStep.Carries`).
-/

namespace SyntaxExport

variable {ρ : Renaming}

/-! ### Tables -/

/-- A renamed identity has the number of the identity. -/
structure IdentityTable.Renamed (ρ : Renaming) (t t' : IdentityTable) : Prop where
  size : t'.size = t.size
  get? : ∀ n : NodeRef, t'.get? (n.rename ρ).identity = t.get? n.identity

namespace IdentityTable

theorem renamed_empty : Renamed ρ empty empty where
  size := rfl
  get? n := by simp [get?, empty]

theorem Renamed.intern {t t' : IdentityTable} (h : t.Renamed ρ t') (n : NodeRef) :
    (t'.intern (n.rename ρ).identity).1 = (t.intern n.identity).1
      ∧ (t.intern n.identity).2.Renamed ρ (t'.intern (n.rename ρ).identity).2 := by
  cases hn : t.get? n.identity with
  | some k =>
    have hn' : t'.get? (n.rename ρ).identity = some k := (h.get? n).trans hn
    rw [intern_of_some hn, intern_of_some hn']
    exact ⟨rfl, h⟩
  | none =>
    have hn' : t'.get? (n.rename ρ).identity = none := (h.get? n).trans hn
    have hnext : min t'.size (UInt32.size - 1) = min t.size (UInt32.size - 1) := by rw [h.size]
    refine ⟨by rw [fst_intern_of_none hn, fst_intern_of_none hn', hnext],
      by rw [size_intern_of_none hn, size_intern_of_none hn', h.size], fun m => ?_⟩
    rw [get?_intern_of_none hn, get?_intern_of_none hn', hnext, h.get?]
    -- different nodes have different identities before and after
    have hsame : (n.rename ρ).identity = (m.rename ρ).identity ↔ n.identity = m.identity := by
      constructor
      · intro hnm
        rw [(NodeRef.rename_inj ρ).mp (NodeRef.identity_injective hnm)]
      · intro hnm
        rw [NodeRef.identity_injective hnm]
    rw [if_congr hsame rfl rfl]

end IdentityTable

/-! ### Cursors -/

theorem LocationCursor.advance_rename (c : LocationCursor) (loc : Option SourceLocation) :
    (c.rename ρ).advance (loc.map (SourceLocation.rename ρ)) = (c.advance loc).rename ρ := by
  cases loc <;> rfl

/-- The relative form of a location in a renamed file. -/
def LocationDelta.rename (ρ : Renaming) : LocationDelta → LocationDelta
  | .file f l c => .file (ρ.file f) l c
  | d => d

theorem LocationCursor.delta_rename (c : LocationCursor) (loc : Option SourceLocation) :
    (c.rename ρ).delta (loc.map (SourceLocation.rename ρ)) = (c.delta loc).rename ρ := by
  cases loc with
  | none => rfl
  | some loc =>
    have hfile : c.file.map ρ.file = some (ρ.file loc.file) ↔ c.file = some loc.file := by
      cases c.file <;> simp
    simp only [Option.map_some, delta, LocationCursor.rename, SourceLocation.rename, ne_eq, hfile]
    by_cases hf : c.file = some loc.file
    · by_cases hl : c.line = some loc.line
      · simp [hf, hl, LocationDelta.rename]
      · simp [hf, hl, LocationDelta.rename]
    · simp [hf, LocationDelta.rename]

/-! ### Parts of a pass -/

variable {σ : Type}

/-- The states of two passes, the second one over renamed nodes. -/
structure Pass.Renamed (ρ : Renaming) (p p' : Pass σ) : Prop where
  cursor : p'.cursor = p.cursor.rename ρ
  identities : p.identities.Renamed ρ p'.identities
  writer : p'.writer = p.writer

/-- Where the first part succeeds, the second one succeeds on the renamed state. -/
def PassStep.Carries (ρ : Renaming) (step step' : PassStep σ) : Prop :=
  ∀ p p' q, p.Renamed ρ p' → step p = (.ok (), q) → ∃ q', step' p' = (.ok (), q') ∧ q.Renamed ρ q'

namespace Pass

theorem carries_all : ∀ {steps steps' : List (PassStep σ)},
    List.Forall₂ (PassStep.Carries ρ) steps steps' → PassStep.Carries ρ (all steps) (all steps')
  | [], [], _, p, p', q, hp, hq => by
    cases hq
    exact ⟨p', rfl, hp⟩
  | step :: steps, step' :: steps', hsteps, p, p', q, hp, hq => by
    obtain ⟨hstep, hrest⟩ := List.forall₂_cons.mp hsteps
    rw [all] at hq ⊢
    split at hq
    · next p₁ hp₁ =>
      obtain ⟨p₁', hp₁', hrenamed⟩ := hstep p p' p₁ hp hp₁
      rw [hp₁']
      exact carries_all hrest p₁ p₁' q hrenamed hq
    · cases hq

theorem carries_fail (e : ExportError) (step : PassStep σ) : PassStep.Carries ρ (fail e) step := by
  intro p p' q _ hq
  cases hq

theorem carries_moveTo (loc : Option SourceLocation) :
    PassStep.Carries ρ (moveTo loc : PassStep σ) (moveTo (loc.map (SourceLocation.rename ρ))) := by
  intro p p' q hp hq
  cases hq
  refine ⟨_, rfl, ?_, hp.identities, hp.writer⟩
  rw [hp.cursor]
  exact LocationCursor.advance_rename p.cursor loc

variable [DocumentWriter σ]

theorem carries_call (c : Call) : PassStep.Carries ρ (call c : PassStep σ) (call c) := by
  intro p p' q hp hq
  obtain ⟨cursor, identities, writer⟩ := p
  obtain ⟨cursor', identities', writer'⟩ := p'
  obtain ⟨hcursor, hidentities, hwriter⟩ := hp
  simp only at hcursor hidentities hwriter
  subst hwriter
  rw [call] at hq ⊢
  split at hq
  · cases hq
    exact ⟨_, rfl, hcursor, hidentities, rfl⟩
  · cases hq

theorem carries_field (name : String) (value : Scalar) :
    PassStep.Carries ρ (field name value : PassStep σ) (field name value) :=
  carries_all (.cons (carries_call _) (.cons (carries_call _) .nil))

theorem carries_identity (n : NodeRef) :
    PassStep.Carries ρ (identity .anonymized n : PassStep σ) (identity .anonymized (n.rename ρ)) := by
  intro p p' q hp hq
  obtain ⟨cursor, identities, writer⟩ := p
  obtain ⟨cursor', identities', writer'⟩ := p'
  obtain ⟨hnumber, hidentities⟩ := hp.identities.intern n
  rw [identity] at hq ⊢
  simp only [IdentityTable.render] at hq ⊢
  rw [hnumber]
  exact carries_call _ ⟨cursor, (identities.intern n.identity).2, writer⟩ _ q
    ⟨hp.cursor, hidentities, hp.writer⟩ hq

variable {ctx ctx' : Context} (h : ctx.CopiedInto ρ ctx') {opts : Options}

include h

theorem carries_fileField (paths : PathRule) (f : FileId) :
    PassStep.Carries ρ (fileField ctx paths f : PassStep σ) (fileField ctx' paths (ρ.file f)) := by
  rw [fileField]
  cases hname : ctx.fileName? f with
  | none =>
    intro p p' q _ hq
    simp only [all] at hq
    split at hq <;> cases hq
  | some name =>
    rw [fileField, h.file hname]
    exact carries_field _ _

theorem carries_location (paths : PathRule) (loc : Option SourceLocation) :
    PassStep.Carries ρ (location ctx paths loc : PassStep σ)
      (location ctx' paths (loc.map (SourceLocation.rename ρ))) := by
  intro p p' q hp hq
  have hfields : ∀ d : LocationDelta, List.Forall₂ (PassStep.Carries ρ)
      (deltaFields ctx paths d : List (PassStep σ)) (deltaFields ctx' paths (d.rename ρ)) := by
    intro d
    cases d with
    | absent => exact .nil
    | column c => exact .cons (carries_field _ _) .nil
    | line l c => exact .cons (carries_field _ _) (.cons (carries_field _ _) .nil)
    | file f l c =>
      exact .cons (carries_fileField h paths f)
        (.cons (carries_field _ _) (.cons (carries_field _ _) .nil))
  have hcount : ∀ d : LocationDelta, (d.rename ρ).fieldCount = d.fieldCount := by
    intro d
    cases d <;> rfl
  rw [location] at hq ⊢
  simp only [hp.cursor, LocationCursor.delta_rename, hcount] at hq ⊢
  refine carries_all (.cons (carries_call _) ?_) p p' q hp hq
  exact List.rel_append (hfields _) (.cons (carries_moveTo loc) (.cons (carries_call _) .nil))

variable (hmode : opts.identityMode = .anonymized)

include hmode

theorem carries_token {define define' : Site → PassStep σ}
    (hdefine : ∀ s, PassStep.Carries ρ (define s) (define' (s.rename ρ))) (t : Token Item) :
    PassStep.Carries ρ (token ctx opts define t) (token ctx' opts define' (t.rename ρ)) := by
  cases t with
  | container | variant | close | tag => exact carries_call _
  | leaf a =>
    cases a with
    | scalar x => exact carries_call _
    | identity n =>
      rw [Token.rename, Item.rename, token, token, hmode]
      exact carries_identity n
    | location loc => exact carries_location h opts.paths loc
    | define s => exact hdefine s
    | fault e => exact carries_fail e _

omit h hmode in
/-- A pass that succeeds has met no fault. -/
theorem faultless_of_all {define : Site → PassStep σ} : ∀ {ts : List (Token Item)} {p q : Pass σ},
    all (ts.map (token ctx opts define)) p = (.ok (), q) → Faultless ts
  | [], _, _, _ => nofun
  | t :: ts, p, q, hq => by
    rw [List.map_cons, all] at hq
    split at hq
    · next p₁ hp₁ =>
      intro e he
      rcases List.mem_cons.mp he with rfl | he
      · cases hp₁
      · exact faultless_of_all hq e he
    · cases hq

variable (hkeeps : opts.KeepsRenamed ρ ctx ctx')

include hkeeps

/-- A pass over a site that succeeds succeeds over the renamed site, with the same nesting. -/
theorem carries_site : ∀ (fuel : Nat) (s : Site),
    PassStep.Carries ρ (site ctx opts fuel s : PassStep σ) (site ctx' opts fuel (s.rename ρ))
  | 0, _ => carries_fail _ _
  | fuel + 1, s => by
    intro p p' q hp hq
    rw [site, layout, Layout.tokens_eq (s.wellFormed_layout ctx opts)] at hq
    rw [site, layout, Layout.tokens_eq ((s.rename ρ).wellFormed_layout ctx' opts),
      s.carries_layout h hkeeps (faultless_of_all hq), List.map_map]
    refine carries_all ?_ p p' q hp hq
    rw [List.forall₂_map_left_iff, List.forall₂_map_right_iff, List.forall₂_same]
    exact fun t _ => carries_token h hmode (carries_site fuel) t

omit h hmode hkeeps in
/-- A pass over a site that succeeds with some nesting succeeds with the nesting that is allowed. -/
theorem site_nestingBound {fuel : Nat} {s : Site} {p q : Pass σ}
    (hq : site ctx opts fuel s p = (.ok (), q)) :
    site ctx opts ctx.nestingBound s p = (.ok (), q) := by
  rw [site_eq_run, run] at hq ⊢
  rw [Site.tokens_nestingBound (faultless_of_all hq)]
  exact hq

end Pass

end SyntaxExport
