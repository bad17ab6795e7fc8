import SyntaxExport.Proofs.Document.InPlace
import SyntaxExport.Proofs.Document.Lockstep

/-!
# Sinks that are too small

A text writer whose sink takes `limit` bytes is compared with one whose sink takes everything, on the
same commands. As long as the text fits, the two differ in nothing. After that the small sink is full:
the scopes go on as in the other writer, only the indentation may stay behind, and with it the texts of
later calls, but none of them reaches the sink. So the small sink holds the first `limit` bytes of the
text throughout (`Truncates.perform`), and a call is rejected by the scopes of both writers or of none.
-/

namespace SyntaxExport

namespace TextWriter

/-- A writer whose sink takes `limit` bytes beside one whose sink takes everything. -/
structure Truncates (limit : Nat) (w u : TextWriter) : Prop where
  format : w.format = u.format
  scopes : w.state.scopes = u.state.scopes
  capacity : w.sink.capacity = some limit
  unlimited : u.sink.capacity = none
  flush : w.sink.flushFails = false
  flush_unlimited : u.sink.flushFails = false
  bytes : w.sink.bytes = u.sink.bytes.extract 0 limit
  /-- The indentation stays behind only where the text does not fit. -/
  indent : u.sink.bytes.size ≤ limit → w.state.indent = u.state.indent

/-- The state of a writer after a text for its sink, of which the scopes accepted the call. -/
def wrote (w : TextWriter) (text : String) (s : TextState) : TextWriter :=
  ⟨w.format, if (w.sink.write text).1 then s else w.state.cut s, (w.sink.write text).2⟩

namespace Truncates

variable {limit : Nat} {w u : TextWriter} (h : Truncates limit w u)

include h

/-- Where the text fits so far, the writers differ in nothing but the capacities. -/
theorem state_eq (hfits : u.sink.bytes.size ≤ limit) : w.state = u.state := by
  have hscopes := h.scopes
  have hindent := h.indent hfits
  cases hw : w.state with
  | mk scopes indent =>
    cases hu : u.state with
    | mk scopes' indent' =>
      rw [hw, hu] at hscopes hindent
      rw [show scopes = scopes' from hscopes, show indent = indent' from hindent]

theorem bytes_eq (hfits : u.sink.bytes.size ≤ limit) : w.sink.bytes = u.sink.bytes := by
  rw [h.bytes, extract_of_size_le hfits]

/-- The small sink holds the beginning also after a text, whatever it is offered once it is full. -/
theorem bytes_write {a b : String} (hsame : u.sink.bytes.size ≤ limit → a = b) :
    (w.sink.write a).2.bytes = (u.sink.bytes ++ b.toUTF8).extract 0 limit := by
  rw [Sink.write_eq_of_capacity h.capacity, ByteArray.extract_append, Nat.zero_sub]
  by_cases hfits : u.sink.bytes.size ≤ limit
  · rw [hsame hfits, h.bytes_eq hfits, extract_of_size_le hfits]
  · have hfull : limit - w.sink.bytes.size = 0 := by
      rw [h.bytes, ByteArray.size_extract]
      omega
    have hover : limit - u.sink.bytes.size = 0 := by omega
    rw [hfull, hover, ByteArray.extract_same, ByteArray.extract_same, ByteArray.append_empty,
      ByteArray.append_empty, h.bytes]

/-- Texts that are the same as long as all texts fit. The small sink takes the whole of its text where
it fits into the other sink too. -/
theorem write {a b : String} {s t : TextState} (hscopes : s.scopes = t.scopes)
    (hsame : u.sink.bytes.size ≤ limit → a = b ∧ s = t) :
    Truncates limit (w.wrote a s) (u.wrote b t) ∧ (u.sink.bytes.size ≤ limit →
      ((w.sink.write a).1 = true ↔ (u.wrote b t).sink.bytes.size ≤ limit)) := by
  have hu : u.wrote b t = ⟨u.format, t, { u.sink with bytes := u.sink.bytes ++ b.toUTF8 }⟩ := by
    rw [wrote, Sink.write_eq_of_unlimited h.unlimited]
    rfl
  have hw := Sink.write_eq_of_capacity h.capacity a
  have hiff : u.sink.bytes.size ≤ limit →
      ((w.sink.write a).1 = true ↔ (u.wrote b t).sink.bytes.size ≤ limit) := by
    intro hfits
    rw [hw, decide_eq_true_iff, hu, ByteArray.size_append, h.bytes_eq hfits, (hsame hfits).1]
    omega
  refine ⟨⟨h.format, ?_, ?_, ?_, ?_, ?_, ?_, fun hlast => ?_⟩, hiff⟩
  · rw [hu, ← hscopes, wrote]
    split <;> rfl
  · rw [wrote, hw]
    exact h.capacity
  · rw [hu]
    exact h.unlimited
  · rw [wrote, hw]
    exact h.flush
  · rw [hu]
    exact h.flush_unlimited
  · rw [hu]
    exact h.bytes_write fun hfits => (hsame hfits).1
  · -- what fits now fitted before, so the texts and states are the same
    have hfits : u.sink.bytes.size ≤ limit := by
      rw [hu, ByteArray.size_append] at hlast
      omega
    rw [hu, ← (hsame hfits).2, wrote, if_pos ((hiff hfits).mpr hlast)]

end Truncates

/-! ### Commands -/

theorem call_of_error {w : TextWriter} {c : Call} {e : WriteError}
    (h : w.state.call w.format c = .error e) : w.call c = (.error e, w) := by
  rw [call, h]

/-- An accepted call hands its text to the sink. -/
theorem call_of_text {w : TextWriter} {c : Call} {text : String} {s : TextState}
    (h : w.state.call w.format c = .ok (text, s)) :
    w.call c = (if (w.sink.write text).1 then .ok () else .error .io, w.wrote text s) := by
  rw [call, h, wrote]
  dsimp only
  split <;> rfl

theorem finish_of_error {w : TextWriter} {e : WriteError} (h : w.state.finish w.format = .error e) :
    w.finish = (.error e, w) := by
  rw [finish, h]

/-- The end of a document changes the scopes alone, so no indentation stays behind. -/
theorem finish_of_text {w : TextWriter} {text : String} {s : TextState}
    (hflush : w.sink.flushFails = false) (h : w.state.finish w.format = .ok (text, s)) :
    w.finish = (if (w.sink.write text).1 then .ok () else .error .io, w.wrote text s) := by
  have hcut : w.state.cut s = s := by
    rw [TextState.finish] at h
    split at h
    · cases h
    · cases h
      simp [TextState.cut]
  have hlast : (w.sink.write text).2.flushFails = false := by
    rw [Sink.write]
    split
    · exact hflush
    · dsimp only
      split <;> exact hflush
  rw [finish, h, wrote, hcut]
  simp [hlast]

/-- The answers of the two writers to one command. -/
structure CutShort (limit : Nat) (u : TextWriter) (x y : Except WriteError Unit × TextWriter) : Prop where
  truncates : Truncates limit x.2 y.2
  /-- The command is cut off where its text is the first that does not fit. -/
  answer : u.sink.bytes.size ≤ limit →
    x.1 = if y.2.sink.bytes.size ≤ limit then y.1 else .error .io
  rejected : ∀ e, e ≠ .io → (x.1 = .error e ↔ y.1 = .error e)

namespace Truncates

variable {limit : Nat} {w u : TextWriter} (h : Truncates limit w u)

include h

theorem cutShort_error (e : WriteError) : CutShort limit u (.error e, w) (.error e, u) where
  truncates := h
  answer hfits := (if_pos hfits).symm
  rejected _ _ := Iff.rfl

theorem cutShort_text {a b : String} {s t : TextState} (hscopes : s.scopes = t.scopes)
    (hsame : u.sink.bytes.size ≤ limit → a = b ∧ s = t) : CutShort limit u
      (if (w.sink.write a).1 then .ok () else .error .io, w.wrote a s)
      (if (u.sink.write b).1 then .ok () else .error .io, u.wrote b t) where
  truncates := (h.write hscopes hsame).1
  answer hfits := by
    rw [Sink.write_eq_of_unlimited h.unlimited]
    simp only [(h.write hscopes hsame).2 hfits, if_true]
  rejected e he := by
    rw [Sink.write_eq_of_unlimited h.unlimited]
    refine ⟨fun hw => ?_, nofun⟩
    split at hw
    · cases hw
    · exact absurd (Except.error.inj hw).symm he

theorem cutShort_call (c : Call) : CutShort limit u (w.call c) (u.call c) := by
  have hw := TextState.call_eq w.format w.state c
  have hu := TextState.call_eq u.format u.state c
  rw [← h.scopes] at hu
  cases hc : w.state.scopes.account c with
  | error e =>
    rw [hc] at hw hu
    rw [call_of_error (TextState.eq_error hw), call_of_error (TextState.eq_error hu)]
    exact h.cutShort_error e
  | ok scopes =>
    rw [hc] at hw hu
    obtain ⟨a, s, ha, hs⟩ := TextState.exists_text hw
    obtain ⟨b, t, hb, ht⟩ := TextState.exists_text hu
    rw [call_of_text ha, call_of_text hb]
    refine h.cutShort_text (hs.trans ht.symm) fun hfits => ?_
    rw [h.format, h.state_eq hfits] at ha
    cases ha.symm.trans hb
    exact ⟨rfl, rfl⟩

theorem cutShort_finish : CutShort limit u w.finish u.finish := by
  have hw := TextState.finish_eq w.format w.state
  have hu := TextState.finish_eq u.format u.state
  rw [← h.scopes] at hu
  cases hc : w.state.scopes.finish with
  | error e =>
    rw [hc] at hw hu
    rw [finish_of_error (TextState.eq_error hw), finish_of_error (TextState.eq_error hu)]
    exact h.cutShort_error e
  | ok scopes =>
    rw [hc] at hw hu
    obtain ⟨a, s, ha, hs⟩ := TextState.exists_text hw
    obtain ⟨b, t, hb, ht⟩ := TextState.exists_text hu
    rw [finish_of_text h.flush ha, finish_of_text h.flush_unlimited hb]
    refine h.cutShort_text (hs.trans ht.symm) fun hfits => ?_
    rw [h.format, h.state_eq hfits] at ha
    cases ha.symm.trans hb
    exact ⟨rfl, rfl⟩

theorem perform (c : Command) : CutShort limit u (c.perform w) (c.perform u) := by
  cases c with
  | call c => exact h.cutShort_call c
  | finish => exact h.cutShort_finish

end Truncates

/-- Fresh writers have nothing in their sinks. -/
theorem truncates_fresh (limit : Nat) (f : TextFormat) : Truncates limit
    { format := f, sink := { capacity := some limit } } { format := f } where
  format := rfl
  scopes := rfl
  capacity := rfl
  unlimited := rfl
  flush := rfl
  flush_unlimited := rfl
  bytes := (extract_of_size_le (Nat.zero_le limit)).symm
  indent _ := rfl

/-- Commands one after the other, going on after those that are rejected. -/
theorem Truncates.performEach {limit : Nat} : ∀ (cs : List Command) {w u : TextWriter},
    Truncates limit w u →
    let x := Command.performEach (cs.map ([·])) w
    let y := Command.performEach (cs.map ([·])) u
    Truncates limit x.2 y.2 ∧
      ∀ (i : Nat) (e : WriteError), e ≠ .io → (x.1[i]? = some (.error e) ↔ y.1[i]? = some (.error e))
  | [], w, u, h => ⟨h, fun _ _ _ => Iff.rfl⟩
  | c :: cs, w, u, h => by
    obtain ⟨hnext, -, hrejected⟩ := h.perform c
    obtain ⟨hlast, hrest⟩ := performEach cs hnext
    simp only [List.map_cons, Command.performEach, Command.performAll_singleton]
    refine ⟨hlast, fun i e he => ?_⟩
    cases i with
    | zero => simpa using hrejected e he
    | succ i => simpa using hrest i e he

end TextWriter

end SyntaxExport
