import SyntaxExport.Proofs.Arity
import SyntaxExport.Proofs.Document.RoundTrip
import SyntaxExport.Proofs.Pass.Lockstep
import SyntaxExport.Proofs.Recording

/-!
# Text and log of the same document

A text writer keeps the open scopes and the indentation, a recorder keeps the log. On the same
commands they go in lockstep, and what the text writer has handed to its sink is at every moment the
text of the log (`TextWriter.Streams`). So a sink that takes everything ends with the laid out
document, and a session that fails leaves the text of what it logged (`TextWriter.text_follows_log`).
-/

namespace SyntaxExport

open ScopedWriter (scopes Reliable)

/-! ### The text of a log -/

/-- The call that leaves an entry. -/
def Event.call? : Event → Option Call
  | .scope .object arity => some (.container .object arity)
  | .scope .array arity => some (.container .array arity)
  | .scope .tuple arity => some (.container .tuple arity)
  | .scope .variant _ | .scope .document _ => none
  | .variant name => some (.variant name)
  | .close => some .close
  | .tag name => some (.tag name)
  | .scalar x => some (.leaf x)

theorem Event.call?_ofCall (c : Call) : (Event.ofCall c).call? = some c := by
  cases c with
  | container shape arity => cases shape <;> rfl
  | variant | close | tag | leaf => rfl

theorem Event.filterMap_call? (calls : List Call) :
    (calls.map Event.ofCall).filterMap Event.call? = calls := by
  induction calls with
  | nil => rfl
  | cons c calls ih => rw [List.map_cons, List.filterMap_cons, call?_ofCall, ih]

/-- The text of a log. A log of a whole document has the text of its end as well. -/
def TextFormat.logText (f : TextFormat) (es : List Event) : String :=
  match TextState.textAll f (es.filterMap Event.call?) {} with
  | .error _ => ""
  | .ok (text, s) =>
    match s.finish f with
    | .error _ => text
    | .ok (last, _) => text ++ last

/-! ### Writers in lockstep -/

/-- What a text writer knows of the calls whose text is `text` and which leave the state `s`. Before the
end of the document it is in that state, and after the end all scopes are closed. -/
inductive TextWriter.Reached (f : TextFormat) (sink : Sink) (text : String) (s : TextState)
    (w : TextWriter) : Prop
  | unfinished (hopen : w.state.scopes.frames ≠ []) (hstate : w.state = s)
      (hbytes : w.sink.bytes = sink.bytes ++ text.toUTF8)
  | finished (last : String) (hend : s.finish f = .ok (last, w.state))
      (hbytes : w.sink.bytes = sink.bytes ++ (text ++ last).toUTF8)

/-- A recorder and a text writer after the same commands: the text writer has the scopes of the
recorder, and has handed the text of the recorded calls to its sink. -/
structure TextWriter.Streams (f : TextFormat) (sink : Sink) (r : Recorder) (w : TextWriter) :
    Prop where
  format : w.format = f
  reliable : Reliable w
  scopes : w.state.scopes = r.scopes
  calls : ∃ (calls : List Call) (text : String) (s : TextState),
    r.events.toList = calls.map Event.ofCall ∧ TextState.textAll f calls {} = .ok (text, s) ∧
      w.Reached f sink text s

namespace TextWriter

variable {f : TextFormat} {sink : Sink}

theorem frames_of_finish {s t : TextState} {last : String} (h : s.finish f = .ok (last, t)) :
    t.scopes.frames = [] := by
  have hscopes := TextState.finish_eq f s
  rw [h] at hscopes
  have hend : s.scopes.finish = .ok t.scopes := hscopes.symm
  grind [ScopeStack.finish]

theorem streams_call {r : Recorder} {w : TextWriter} (c : Call) (h : Streams f sink r w) :
    Agree (Streams f sink) (DocumentWriter.call c r) (DocumentWriter.call c w) := by
  cases hc : r.scopes.account c with
  | error e =>
    have hr : (DocumentWriter.call c r) = (.error e, r) := ScopedWriter.call_error hc
    have hw : (DocumentWriter.call c w) = (.error e, w) :=
      ScopedWriter.call_error (show w.state.scopes.account c = _ from h.scopes ▸ hc)
    rw [hr, hw]
    exact ⟨rfl, h⟩
  | ok s =>
    have hr : (DocumentWriter.call c r) = (.ok (), r.log c s) := by
      simp [DocumentWriter.call, Recorder.call, hc]
    have hc' : w.state.scopes.account c = .ok s := h.scopes ▸ hc
    obtain ⟨w', hw, hs, hw'⟩ := ScopedWriter.call_ok h.reliable hc'
    obtain ⟨more, state, hmore, rfl⟩ := eq_of_call h.reliable hw
    rw [hr, hw]
    refine ⟨rfl, h.format, hw', hs, ?_⟩
    obtain ⟨calls, text, t, hevents, htext, hreached⟩ := h.calls
    cases hreached with
    | unfinished hopen hstate hbytes =>
      rw [h.format, hstate] at hmore
      refine ⟨calls ++ [c], text ++ more, state, ?_, TextState.textAll_concat htext hmore, ?_⟩
      · simp [Recorder.log, hevents]
      · refine .unfinished ?_ rfl ?_
        · have hafter := (ScopeStack.frames_ne_nil_of_account hc').2
          rwa [← hs] at hafter
        · simp [hbytes, ByteArray.append_assoc]
    | finished last hend hbytes =>
      -- a finished document takes no call
      exact absurd (frames_of_finish hend) (ScopeStack.frames_ne_nil_of_account hc').1

theorem streams_finish {r : Recorder} {w : TextWriter} (h : Streams f sink r w) :
    Agree (Streams f sink) (DocumentWriter.finish r) (DocumentWriter.finish w) := by
  cases hend : r.scopes.finish with
  | error e =>
    have hr : (DocumentWriter.finish r) = (.error e, r) := ScopedWriter.finish_error hend
    have hw : (DocumentWriter.finish w) = (.error e, w) :=
      ScopedWriter.finish_error (show w.state.scopes.finish = _ from h.scopes ▸ hend)
    rw [hr, hw]
    exact ⟨rfl, h⟩
  | ok s =>
    have hr : (DocumentWriter.finish r) = (.ok (), { r with scopes := s }) := by
      simp [DocumentWriter.finish, Recorder.finish, hend]
    have hend' : w.state.scopes.finish = .ok s := h.scopes ▸ hend
    obtain ⟨w', hw, hs⟩ := ScopedWriter.finish_ok h.reliable hend'
    obtain ⟨last, state, hlast, rfl⟩ := eq_of_finish h.reliable hw
    rw [hr, hw]
    refine ⟨rfl, h.format, h.reliable, hs, ?_⟩
    obtain ⟨calls, text, t, hevents, htext, hreached⟩ := h.calls
    cases hreached with
    | unfinished hopen hstate hbytes =>
      rw [h.format, hstate] at hlast
      refine ⟨calls, text, t, hevents, htext, .finished last hlast ?_⟩
      simp [hbytes, ByteArray.append_assoc]
    | finished first hfirst hbytes =>
      -- a document ends once
      have hnone := frames_of_finish hfirst
      grind [ScopeStack.finish]

theorem lockstep_streams (f : TextFormat) (sink : Sink) : Lockstep (Streams f sink) where
  call c h := streams_call c h
  finish h := streams_finish h

section Fresh

variable (hcapacity : sink.capacity = none) (hflush : sink.flushFails = false)

include hcapacity hflush

theorem streams_fresh : Streams f sink ({} : Recorder) { format := f, sink := sink } where
  format := rfl
  reliable := ⟨hcapacity, hflush⟩
  scopes := rfl
  calls := ⟨[], "", {}, rfl, rfl, .unfinished (by simp) rfl (by simp)⟩

end Fresh

/-- After the end of the document the recorder has a document, and the sink has its text. -/
theorem Streams.exists_document {r : Recorder} {w : TextWriter} (h : Streams f sink r w)
    (hfinished : r.isFinished = true) : ∃ v : Value, r.document? = some v ∧
      w.sink.bytes = sink.bytes ++ (v.whole f).toUTF8 := by
  have hframes : w.state.scopes.frames = [] := by
    rw [h.scopes]
    simpa [Recorder.isFinished, ScopeStack.isFinished] using hfinished
  obtain ⟨calls, text, s, hevents, htext, hreached⟩ := h.calls
  cases hreached with
  | unfinished hopen _ _ => exact absurd hframes hopen
  | finished last hend hbytes =>
    have hscopes := TextState.finish_eq f s
    rw [hend] at hscopes
    obtain ⟨v, rfl⟩ := ScopeStack.exists_tokens (TextState.accountAll_of_textAll htext) hscopes.symm
    obtain ⟨rfl, rfl⟩ :=
      Prod.mk.inj (Except.ok.inj (htext.symm.trans (TextState.textAll_tokens f v)))
    obtain rfl : (if f.pretty then "\n" else "") = last :=
      congrArg Prod.fst (Except.ok.inj hend)
    refine ⟨v, ?_, hbytes⟩
    rw [Recorder.document?, if_pos hfinished, hevents]
    exact Value.ofEvents?_tokens v

/-- The sink has the text of the log, unless a whole document waits for its end. -/
theorem Streams.bytes_eq_logText {r : Recorder} {w : TextWriter} (h : Streams f sink r w)
    (hend : r.isFinished = true ∨ r.scopes.TakesValue) :
    w.sink.bytes = sink.bytes ++ (f.logText r.events.toList).toUTF8 := by
  obtain ⟨calls, text, s, hevents, htext, hreached⟩ := h.calls
  rw [TextFormat.logText, hevents, Event.filterMap_call?, htext]
  simp only
  cases hreached with
  | finished last hlast hbytes => rw [hlast, hbytes]
  | unfinished hopen hstate hbytes =>
    rw [h.scopes] at hopen
    have hplace : r.scopes.TakesValue := by
      refine hend.resolve_left fun hfinished => hopen ?_
      simpa [Recorder.isFinished, ScopeStack.isFinished] using hfinished
    cases hlast : s.finish f with
    | error e => exact hbytes
    | ok x =>
      -- the calls would be those of a whole document, after which there is no place for a value
      have hscopes := TextState.finish_eq f s
      rw [hlast] at hscopes
      obtain ⟨v, rfl⟩ :=
        ScopeStack.exists_tokens (TextState.accountAll_of_textAll htext) hscopes.symm
      obtain ⟨rfl, rfl⟩ :=
        Prod.mk.inj (Except.ok.inj (htext.symm.trans (TextState.textAll_tokens f v)))
      obtain ⟨slot, t, hvalue⟩ := hplace
      rw [← h.scopes, hstate] at hvalue
      cases hvalue

end TextWriter

/-! ### Sessions -/

namespace TextWriter

/-- On the same uses, rejected ones included, a text writer over a sink that takes everything gives
the answers of a recorder, and once the end of the document was accepted the sink has the recorded
document laid out. So a document comes to the same in both, whatever was written before; and in fresh
writers the text, also that of a document that fails, is the text of the log. -/
theorem text_follows_log (f : TextFormat) (sink : Sink) (hcapacity : sink.capacity = none)
    (hflush : sink.flushFails = false) :
    (∀ uses : List (List Command),
      (Command.performEach uses ({ format := f, sink := sink } : TextWriter)).1
        = (Command.performEach uses ({} : Recorder)).1 ∧
      ((Command.performEach uses ({} : Recorder)).2.isFinished = true → ∃ v : Value,
        (Command.performEach uses ({} : Recorder)).2.document? = some v ∧
        (Command.performEach uses ({ format := f, sink := sink } : TextWriter)).2.sink.bytes
          = sink.bytes ++ (v.whole f).toUTF8)) ∧
    (∀ (uses : List (List Command)) (ctx : Context) (root : DeclId) (opts : Options) (s : Session),
      (s.write ctx root opts
          (Command.performEach uses ({ format := f, sink := sink } : TextWriter)).2).1
        = (s.write ctx root opts (Command.performEach uses ({} : Recorder)).2).1 ∧
      (s.write ctx root opts
          (Command.performEach uses ({ format := f, sink := sink } : TextWriter)).2).2.1
        = (s.write ctx root opts (Command.performEach uses ({} : Recorder)).2).2.1) ∧
    ∀ (ctx : Context) (root : DeclId) (opts : Options) (s : Session),
      (s.write ctx root opts ({ format := f, sink := sink } : TextWriter)).2.2.sink.bytes
        = sink.bytes
          ++ (f.logText (s.write ctx root opts ({} : Recorder)).2.2.events.toList).toUTF8 := by
  have hstep := lockstep_streams f sink
  have hfresh : Streams f sink ({} : Recorder) { format := f, sink := sink } :=
    streams_fresh hcapacity hflush
  refine ⟨fun uses => ?_, fun uses ctx root opts s => ?_, fun ctx root opts s => ?_⟩
  · obtain ⟨hanswers, hstreams⟩ := hstep.performEach uses hfresh
    exact ⟨hanswers.symm, hstreams.exists_document⟩
  · obtain ⟨-, hstreams⟩ := hstep.performEach uses hfresh
    obtain ⟨hresult, hsession, -⟩ := hstep.write ctx root opts s hstreams
    exact ⟨hresult.symm, hsession.symm⟩
  · obtain ⟨-, -, hstreams⟩ := hstep.write ctx root opts s hfresh
    refine hstreams.bytes_eq_logText ?_
    cases hwrite : s.write ctx root opts ({} : Recorder) with
    | mk result x =>
      obtain ⟨s', r⟩ := x
      cases result with
      | error e => exact .inr (Session.takesValue_of_write trivial rfl hwrite)
      | ok =>
        have hend := (Session.write_fresh ctx root opts s (w := ({} : Recorder)) trivial rfl).2
        rw [hwrite] at hend
        exact .inl (hend.mpr rfl)

/-- An object with containers of every shape in it. The document is ended too early, a value comes without
its tag, and the array is given an element too many. -/
def lateClose : List (List Command) :=
  [[.call (.container .object 2)], [.finish], [.call (.leaf (.boolean true))],
    [.call (.tag "items"), .call (.container .array 2), .call (.container .tuple 1),
      .call (.leaf (.boolean true)), .call .close],
    [.call (.variant "Some"), .call (.leaf (.integer (-1))), .call .close],
    [.call (.leaf (.boolean false))],
    [.call .close, .call (.tag "rest"), .call (.container .array 0), .call .close, .call .close, .finish]]

/-- The lines of the document, which ends with a line break. -/
def lateCloseLines : Dialect → List String
  | .json => ["\x7b", "  \"items\": [", "    [", "      true", "    ],", "    [\"Some\", -1]", "  ],",
    "  \"rest\": []", "\x7d", ""]
  | .yojson => ["\x7b", "  \"items\": [", "    (", "      true", "    ),", "    <\"Some\": -1>", "  ],",
    "  \"rest\": []", "\x7d", ""]

/-- The uses that are rejected leave no mark on the text, in which every part has its line and the
brackets of the dialect. -/
theorem text_follows_log_lateClose :
    (Command.performEach lateClose ({} : Recorder)).1.countP (·.isOk) = 4 ∧ ∃ v : Value,
      (Command.performEach lateClose ({} : Recorder)).2.document? = some v ∧ ∀ d : Dialect,
      (Command.performEach lateClose
          ({ format := { dialect := d, pretty := true }, sink := {} } : TextWriter)).2.sink.bytes
        = (v.whole { dialect := d, pretty := true }).toUTF8 ∧
      v.whole { dialect := d, pretty := true } = "\n".intercalate (lateCloseLines d) := by
  have hdocument : (Command.performEach lateClose ({} : Recorder)).2.document?
      = some (.object [("items", .array [.tuple [.leaf (.boolean true)],
        .variant "Some" (.leaf (.integer (-1)))]), ("rest", .array [])]) := rfl
  refine ⟨rfl, _, hdocument, fun d => ⟨?_, ?_⟩⟩
  · obtain ⟨v, hv, hbytes⟩ :=
      ((text_follows_log { dialect := d, pretty := true } {} rfl rfl).1 lateClose).2 rfl
    cases hv.symm.trans hdocument
    exact hbytes.trans (by simp)
  · cases d <;> decide +kernel

end TextWriter

end SyntaxExport
