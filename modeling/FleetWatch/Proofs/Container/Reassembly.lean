import FleetWatch.Proofs.Container.CompleteLines
/-!
The lines that come out of chunks.

A reader of lines asks for a chunk when no line is ready, keeps the bytes of the unfinished line,
and stops at the first error.  Main statement: what it gives are the lines of all the bytes
together, wherever these are cut into chunks (`linesFromChunks_isReassembled`).
-/

namespace FleetWatch

/-! ### Lines of bytes -/

/-- The texts of the lines that a line feed ends. -/
def endedLines (bytes : List UInt8) : List String :=
  ((bytes.splitOn 10).dropLast).map decodeLine

/-- The bytes behind the last line feed. -/
def bytesAfterFeeds (bytes : List UInt8) : List UInt8 :=
  (bytes.splitOn 10).getLastD []

/-- The texts of all lines; bytes behind the last line feed are a line too. -/
def linesOfBytes (bytes : List UInt8) : List String :=
  endedLines bytes ++
    if bytesAfterFeeds bytes = [] then [] else [decodeLine (bytesAfterFeeds bytes)]

theorem completeLines_eq_splitOn (bytes : List UInt8) :
    completeLines bytes = (bytes.splitOn 10).dropLast := by
  induction bytes using lines_induction with
  | unfinished bytes hnone =>
    rw [completeLines_of_not_mem hnone, List.splitOn_eq_singleton hnone]
    rfl
  | line first rest hfirst ih =>
    rw [completeLines_line hfirst, List.splitOn_append_cons_self_of_not_mem hfirst, ih,
      List.dropLast_cons_of_ne_nil (List.splitOn_ne_nil _ _)]

theorem unfinishedLine_eq_splitOn (bytes : List UInt8) :
    unfinishedLine bytes = bytesAfterFeeds bytes := by
  induction bytes using lines_induction with
  | unfinished bytes hnone =>
    rw [unfinishedLine_of_not_mem hnone, bytesAfterFeeds, List.splitOn_eq_singleton hnone]
    rfl
  | line first rest hfirst ih =>
    rw [unfinishedLine_line hfirst, ih, bytesAfterFeeds, bytesAfterFeeds,
      List.splitOn_append_cons_self_of_not_mem hfirst]
    cases hrest : rest.splitOn 10 with
    | nil => exact absurd hrest (List.splitOn_ne_nil _ _)
    | cons piece pieces => rfl

/-! ### Reading to the end -/

/-- The unfinished line has no line feed. -/
def LineBuffer.IsOpen (buffer : LineBuffer) : Prop :=
  10 ∉ buffer.pending

theorem LineBuffer.feed_eq {buffer : LineBuffer} (h : buffer.IsOpen) (chunk : List UInt8) :
    buffer.feed chunk =
      ((completeLines (buffer.pending ++ chunk)).map decodeLine,
        ⟨unfinishedLine (buffer.pending ++ chunk)⟩) := by
  have hsplit := splitFeeds_append_of_not_mem h [] chunk
  rw [List.append_nil] at hsplit
  simp only [feed, completeLines, unfinishedLine, hsplit, decodeLine_append_feed]

namespace LineReader

variable {r r' after : LineReader} {item : Except ContainerError String} {buffer : LineBuffer}
  {chunks : List (Except ContainerError (List UInt8))}

theorem drain_of_end (h : r.next = (none, after)) : r.drain = ([], after) := by
  rw [drain]
  split
  · next heq =>
    rw [h] at heq
    cases heq
    rfl
  · next heq =>
    rw [h] at heq
    cases heq

theorem drain_of_item (h : r.next = (some item, after)) :
    r.drain = (item :: after.drain.1, after.drain.2) := by
  rw [drain]
  split
  · next heq =>
    rw [h] at heq
    cases heq
  · next heq =>
    rw [h] at heq
    cases heq
    rfl

/-- Readers that give the same next are the same from then on. -/
theorem drain_congr (h : r.next = r'.next) : r.drain = r'.drain := by
  cases hnext : r'.next with
  | mk result after =>
    cases result with
    | none => rw [drain_of_end hnext, drain_of_end (h.trans hnext)]
    | some item => rw [drain_of_item hnext, drain_of_item (h.trans hnext)]

/-- The lines that are ready come first. -/
theorem drain_ready (chunks : List (Except ContainerError (List UInt8))) (buffer : LineBuffer)
    (isDone : Bool) (ready : List String) :
    drain { chunks, buffer, ready, isDone } =
      (ready.map .ok ++ (drain { chunks, buffer, isDone }).1,
        (drain { chunks, buffer, isDone }).2) := by
  induction ready with
  | nil => rfl
  | cons line ready ih => rw [drain_of_item rfl, ih, List.map_cons, List.cons_append]

theorem drain_done (chunks : List (Except ContainerError (List UInt8))) (buffer : LineBuffer) :
    drain { chunks, buffer, isDone := true } = ([], { chunks, buffer, isDone := true }) :=
  drain_of_end rfl

/-- A chunk gives the lines that it completes. -/
theorem drain_chunk (buffer : LineBuffer) (chunk : List UInt8)
    (chunks : List (Except ContainerError (List UInt8))) :
    drain { chunks := .ok chunk :: chunks, buffer } =
      ((buffer.feed chunk).1.map .ok ++ (drain { chunks, buffer := (buffer.feed chunk).2 }).1,
        (drain { chunks, buffer := (buffer.feed chunk).2 }).2) := by
  have hfill : next { chunks := .ok chunk :: chunks, buffer } =
      fill buffer (.ok chunk :: chunks) := rfl
  rw [fill] at hfill
  cases hfeed : buffer.feed chunk with
  | mk lines buffer' =>
    rw [hfeed] at hfill
    cases lines with
    | nil => exact drain_congr hfill
    | cons line ready => rw [drain_of_item hfill, drain_ready, List.map_cons, List.cons_append]

/-- The end of the stream gives the unfinished line, if it has any bytes. -/
theorem drain_nil (buffer : LineBuffer) :
    drain { chunks := [], buffer } = (buffer.finish.map .ok, { chunks := [], isDone := true }) := by
  have hfill : next { chunks := [], buffer } = fill buffer [] := rfl
  rw [fill] at hfill
  cases hfinish : buffer.finish with
  | nil =>
    rw [hfinish] at hfill
    exact drain_of_end hfill
  | cons line ready =>
    rw [hfinish] at hfill
    rw [drain_of_item hfill, drain_ready, drain_done, List.append_nil, List.map_cons]

/-- An error is the last thing that is given. -/
theorem drain_error (buffer : LineBuffer) (e : ContainerError)
    (chunks : List (Except ContainerError (List UInt8))) :
    drain { chunks := .error e :: chunks, buffer } =
      ([.error e], { chunks, buffer, isDone := true }) := by
  have hfill : next { chunks := .error e :: chunks, buffer } =
      (some (.error e), { chunks, buffer, isDone := true }) := rfl
  rw [drain_of_item hfill, drain_done]

/-- Chunks give the lines that they complete together, and leave the line that they do not. -/
theorem drain_chunks (h : buffer.IsOpen) (parts : List (List UInt8))
    (chunks : List (Except ContainerError (List UInt8))) :
    drain { chunks := parts.map .ok ++ chunks, buffer } =
      (((completeLines (buffer.pending ++ parts.flatten)).map decodeLine).map .ok ++
          (drain { chunks, buffer := ⟨unfinishedLine (buffer.pending ++ parts.flatten)⟩ }).1,
        (drain { chunks, buffer := ⟨unfinishedLine (buffer.pending ++ parts.flatten)⟩ }).2) := by
  induction parts generalizing buffer with
  | nil =>
    rw [List.flatten_nil, List.append_nil, completeLines_of_not_mem h, unfinishedLine_of_not_mem h]
    rfl
  | cons part parts ih =>
    have hopen : LineBuffer.IsOpen ⟨unfinishedLine (buffer.pending ++ part)⟩ :=
      feed_not_mem_unfinishedLine _
    rw [List.map_cons, List.cons_append, drain_chunk, LineBuffer.feed_eq h, ih hopen,
      List.flatten_cons, ← List.append_assoc buffer.pending,
      completeLines_append (buffer.pending ++ part), unfinishedLine_append (buffer.pending ++ part)]
    simp only [List.map_append, List.append_assoc]

end LineReader

/-- What becomes of chunks without an error, and of such chunks with an error behind them. -/
structure IsReassembled (chunks : List (List UInt8)) : Prop where
  /-- The items are the lines of all bytes. -/
  items_eq : linesFromChunks (chunks.map .ok) = (linesOfBytes chunks.flatten).map .ok
  /-- It makes no difference where the bytes are cut. -/
  items_uncut : linesFromChunks (chunks.map .ok) = linesFromChunks [.ok chunks.flatten]
  /-- Before an error come the lines that were ended, and nothing comes after it. -/
  items_error : ∀ e later, linesFromChunks (chunks.map .ok ++ .error e :: later) =
    (endedLines chunks.flatten).map .ok ++ [.error e]
  /-- What stands behind the error is not asked for, and the unfinished line is not given. -/
  after_error : ∀ e later, (LineReader.drain { chunks := chunks.map .ok ++ .error e :: later }).2 =
    { chunks := later, buffer := ⟨bytesAfterFeeds chunks.flatten⟩, isDone := true }

theorem linesFromChunks_isReassembled (chunks : List (List UInt8)) : IsReassembled chunks := by
  have hempty : LineBuffer.IsOpen {} := List.not_mem_nil
  have hitems : ∀ parts : List (List UInt8),
      linesFromChunks (parts.map .ok) = (linesOfBytes parts.flatten).map .ok := by
    intro parts
    have hdrain := LineReader.drain_chunks hempty parts []
    rw [List.append_nil, LineReader.drain_nil] at hdrain
    rw [linesFromChunks, hdrain, linesOfBytes, endedLines, List.map_append]
    rw [List.nil_append, completeLines_eq_splitOn, unfinishedLine_eq_splitOn, LineBuffer.finish]
    simp only [List.isEmpty_iff]
  have herror := fun e later => LineReader.drain_chunks hempty chunks (.error e :: later)
  simp only [LineReader.drain_error, List.nil_append, completeLines_eq_splitOn,
    unfinishedLine_eq_splitOn] at herror
  refine ⟨hitems chunks, ?_, ?_, ?_⟩
  · have huncut := hitems [chunks.flatten]
    rw [List.flatten_singleton] at huncut
    rw [hitems chunks]
    exact huncut.symm
  · intro e later
    rw [linesFromChunks, herror, endedLines]
  · intro e later
    rw [herror]

end FleetWatch
