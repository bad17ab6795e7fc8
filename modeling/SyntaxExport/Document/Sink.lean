import SyntaxExport.Document.Text

/-!
# Text writers over a sink of bytes

A sink takes bytes up to its capacity and none after that. A call whose text does not fit is
rejected after the sink took what fits, and the scopes have advanced all the same.
-/

namespace SyntaxExport

/-- A place for bytes. -/
structure Sink where
  bytes : ByteArray := .empty
  /-- The number of bytes the sink takes; without one it takes all. -/
  capacity : Option Nat := none
  /-- Whether the sink fails when the document ends. -/
  flushFails : Bool := false

namespace Sink

instance : Inhabited Sink := ⟨{}⟩

/-- Hands a text to the sink and says whether the whole text fits. -/
def write (s : Sink) (text : String) : Bool × Sink :=
  let data := text.toUTF8
  match s.capacity with
  | none => (true, { s with bytes := s.bytes ++ data })
  | some capacity =>
    let room := capacity - s.bytes.size
    if data.size ≤ room then (true, { s with bytes := s.bytes ++ data })
    else (false, { s with bytes := s.bytes ++ data.extract 0 room })

end Sink

/-- The state that a call leaves whose text does not fit. The scopes have advanced. A scope that was
closed no longer indents, and a scope whose start was cut off does not indent. -/
def TextState.cut (s t : TextState) : TextState :=
  { t with indent := min s.indent t.indent }

/-- A writer of text. -/
structure TextWriter where
  format : TextFormat := {}
  state : TextState := {}
  sink : Sink := {}

namespace TextWriter

instance : Inhabited TextWriter := ⟨{}⟩

def call (c : Call) (w : TextWriter) : Except WriteError Unit × TextWriter :=
  match w.state.call w.format c with
  | .error e => (.error e, w)
  | .ok (text, state) =>
    let ⟨format, before, sink⟩ := w
    let (fits, sink) := sink.write text
    if fits then (.ok (), ⟨format, state, sink⟩)
    else (.error .io, ⟨format, before.cut state, sink⟩)

def finish (w : TextWriter) : Except WriteError Unit × TextWriter :=
  match w.state.finish w.format with
  | .error e => (.error e, w)
  | .ok (text, state) =>
    let ⟨format, _, sink⟩ := w
    let (fits, sink) := sink.write text
    (if fits ∧ ¬sink.flushFails then .ok () else .error .io, ⟨format, state, sink⟩)

instance : DocumentWriter TextWriter where
  call := call
  finish := finish

end TextWriter

end SyntaxExport
