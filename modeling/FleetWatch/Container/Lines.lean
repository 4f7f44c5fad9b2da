import FleetWatch.Error
import FleetWatch.Text.Lossy
/-!
Lines out of chunks.

The pieces in which output arrives do not end where lines do.  A `LineBuffer` holds the bytes of
the line that is not finished yet; a chunk completes some lines and leaves a new remainder.  A line
is decoded as a whole, so a character cut by a chunk boundary is put together first.

A `LineReader` gives one line at a time and asks for chunks only when no line is ready.
-/

namespace FleetWatch

/-- A line without the line feeds and carriage returns at its end. -/
def decodeLine (raw : List UInt8) : String :=
  String.ofList
    ((Text.decodeLossy raw).reverse.dropWhile (fun c => c == '\n' || c == '\r')).reverse

/-- The pieces before each line feed, and what follows the last one.  `done` holds the bytes of the
piece being read, backwards. -/
def splitFeeds (done : List UInt8) : List UInt8 → List (List UInt8) × List UInt8
  | [] => ([], done.reverse)
  | b :: rest =>
    if b = 10 then
      let (pieces, last) := splitFeeds [] rest
      (done.reverse :: pieces, last)
    else splitFeeds (b :: done) rest

/-- The bytes of an unfinished line. -/
structure LineBuffer where
  pending : List UInt8 := []
deriving Repr, DecidableEq, Inhabited

namespace LineBuffer

/-- The lines that a chunk completes, and the buffer after it. -/
def feed (b : LineBuffer) (chunk : List UInt8) : List String × LineBuffer :=
  let (pieces, last) := splitFeeds b.pending.reverse chunk
  (pieces.map fun piece => decodeLine (piece ++ [10]), ⟨last⟩)

/-- The unfinished line, when the stream ends; no line if nothing is left. -/
def finish (b : LineBuffer) : List String :=
  if b.pending.isEmpty then [] else [decodeLine b.pending]

end LineBuffer

/-- A stream of lines out of a stream of chunks: the chunks that were not asked for yet, the line
that is not finished, the lines that are ready, and whether no more chunks will be asked for. -/
structure LineReader where
  chunks : List (Except ContainerError (List UInt8))
  buffer : LineBuffer := {}
  ready : List String := []
  isDone : Bool := false
deriving Inhabited

namespace LineReader

/-- Asks for chunks until there is something to give.  An error is given and ends the stream; the
unfinished line before it is lost. -/
def fill (buffer : LineBuffer) :
    List (Except ContainerError (List UInt8)) → Option (Except ContainerError String) × LineReader
  | [] =>
    match buffer.finish with
    | [] => (none, { chunks := [], isDone := true })
    | line :: ready => (some (.ok line), { chunks := [], ready, isDone := true })
  | .error e :: chunks => (some (.error e), { chunks, buffer, isDone := true })
  | .ok chunk :: chunks =>
    match buffer.feed chunk with
    | ([], buffer) => fill buffer chunks
    | (line :: ready, buffer) => (some (.ok line), { chunks, buffer, ready })

/-- The next item of the stream, or `none` at its end. -/
def next (r : LineReader) : Option (Except ContainerError String) × LineReader :=
  match r.ready with
  | line :: ready => (some (.ok line), { r with ready })
  | [] => if r.isDone then (none, r) else fill r.buffer r.chunks

/-- How many items can come at most. -/
def left (r : LineReader) : Nat :=
  r.ready.length +
    if r.isDone then 0
    else r.buffer.pending.length + (r.chunks.flatMap fun c => c.toOption.getD []).length + 1

theorem length_splitFeeds (done bytes : List UInt8) :
    (splitFeeds done bytes).1.length + (splitFeeds done bytes).2.length ≤
      done.length + bytes.length := by
  induction bytes generalizing done with
  | nil => simp [splitFeeds]
  | cons b bytes ih =>
    by_cases hb : b = 10
    · have hrest := ih []
      simp only [List.length_nil] at hrest
      simp only [splitFeeds, if_pos hb, List.length_cons]
      omega
    · have hrest := ih (b :: done)
      simp only [List.length_cons] at hrest
      simp only [splitFeeds, if_neg hb, List.length_cons]
      omega

theorem length_feed (buffer : LineBuffer) (chunk : List UInt8) :
    (buffer.feed chunk).1.length + (buffer.feed chunk).2.pending.length ≤
      buffer.pending.length + chunk.length := by
  have hsplit := length_splitFeeds buffer.pending.reverse chunk
  rw [List.length_reverse] at hsplit
  simpa only [LineBuffer.feed, List.length_map] using hsplit

theorem left_fill_lt {buffer : LineBuffer} {chunks : List (Except ContainerError (List UInt8))}
    {item : Except ContainerError String} {after : LineReader}
    (h : fill buffer chunks = (some item, after)) :
    after.left < ({ chunks, buffer } : LineReader).left := by
  induction chunks generalizing buffer with
  | nil =>
    rw [fill, LineBuffer.finish] at h
    cases hpending : buffer.pending with
    | nil => simp [hpending] at h
    | cons b pending =>
      simp only [hpending, List.isEmpty_cons, Bool.false_eq_true, if_false, Prod.mk.injEq] at h
      obtain ⟨-, rfl⟩ := h
      simp [left]
  | cons c chunks ih =>
    cases c with
    | error e =>
      simp only [fill, Prod.mk.injEq] at h
      obtain ⟨-, rfl⟩ := h
      simp [left]
    | ok chunk =>
      have hbytes : (List.flatMap (fun c => c.toOption.getD [])
          ((.ok chunk : Except ContainerError (List UInt8)) :: chunks)).length =
          chunk.length + (chunks.flatMap fun c => c.toOption.getD []).length := by
        rw [List.flatMap_cons, List.length_append]
        rfl
      have hfeed := length_feed buffer chunk
      rw [fill] at h
      split at h
      · next after hlines =>
        have hless := ih h
        simp only [hlines, List.length_nil] at hfeed
        simp only [left, hbytes, Bool.false_eq_true, if_false, List.length_nil] at hless ⊢
        omega
      · next line ready after hlines =>
        simp only [Prod.mk.injEq] at h
        obtain ⟨-, rfl⟩ := h
        simp only [hlines, List.length_cons] at hfeed
        simp only [left, hbytes, Bool.false_eq_true, if_false, List.length_nil]
        omega

theorem left_next_lt {r after : LineReader} {item : Except ContainerError String}
    (h : r.next = (some item, after)) : after.left < r.left := by
  obtain ⟨chunks, buffer, ready, isDone⟩ := r
  cases ready with
  | cons line ready =>
    simp only [next, Prod.mk.injEq] at h
    obtain ⟨-, rfl⟩ := h
    simp [left]
  | nil =>
    cases isDone with
    | true => simp [next] at h
    | false => exact left_fill_lt h

/-- Everything that a reader gives, and the reader after it. -/
def drain (r : LineReader) : List (Except ContainerError String) × LineReader :=
  match _next : r.next with
  | (none, after) => ([], after)
  | (some item, after) =>
    let (items, last) := after.drain
    (item :: items, last)
termination_by r.left
decreasing_by exact left_next_lt _next

end LineReader

/-- The lines of a stream of chunks. -/
def linesFromChunks (chunks : List (Except ContainerError (List UInt8))) :
    List (Except ContainerError String) :=
  (LineReader.drain { chunks }).1

end FleetWatch
