import FleetWatch.Proofs.Container.Reassembly
import FleetWatch.Proofs.Setup.Accepted
import FleetWatch.Proofs.Setup.LogMatches
/-!
The latest session of a setup log.

The matches of a log fall into sessions: each goes on up to the match that ends it, and the last may
be without an end or without a match.  The latest session is the last of them that has a match.
Main statement: it is the one block of matches that goes up to the very last and opens after the last
end before that, and a log that is loaded is reported as finished exactly if the last of its complete
lines that tells anything tells the end (`lastSession_isLatestBlock`).
-/

namespace FleetWatch

variable {ms : List LineMatch} {m : LineMatch}

/-! ### The sessions of a log -/

/-- The sessions that matches fall into: those that are over, and the one at hand. -/
structure Sessions where
  past : List (List LineMatch) := []
  current : List LineMatch := []
deriving Repr, DecidableEq, Inhabited

namespace Sessions

/-- A match goes to the session at hand, and one that ends it opens the next. -/
def push (s : Sessions) (m : LineMatch) : Sessions :=
  if m.isFinished then { past := s.past ++ [s.current ++ [m]] }
  else { s with current := s.current ++ [m] }

def ofMatches (ms : List LineMatch) : Sessions :=
  ms.foldl push {}

/-- The sessions in the order in which they were told. -/
def all (s : Sessions) : List (List LineMatch) :=
  s.past ++ [s.current]

/-- The last session that has a match; empty if none has. -/
def latest (s : Sessions) : List LineMatch :=
  (s.all.reverse.find? fun session => !session.isEmpty).getD []

theorem ofMatches_concat (ms : List LineMatch) (m : LineMatch) :
    ofMatches (ms ++ [m]) = (ofMatches ms).push m := by
  rw [ofMatches, List.foldl_concat, ofMatches]

/-- Together the sessions are all matches, in order. -/
theorem flatten_all (ms : List LineMatch) : (ofMatches ms).all.flatten = ms := by
  induction ms using List.reverseRecOn with
  | nil => rfl
  | append_singleton ms m ih =>
    rw [all, List.flatten_concat] at ih
    rw [ofMatches_concat, push]
    split
    · simp only [all, List.flatten_concat, List.append_nil]
      rw [← List.append_assoc, ih]
    · rw [all, List.flatten_concat, ← List.append_assoc, ih]

/-- A match is the last of the session that it goes to, and that session is the latest. -/
theorem latest_push (s : Sessions) (m : LineMatch) : (s.push m).latest = s.current ++ [m] := by
  rw [push]
  split
  · simp [latest, all]
  · simp [latest, all]

theorem current_push (s : Sessions) (m : LineMatch) :
    (s.push m).current = if m = .finished then [] else s.current ++ [m] := by
  rw [push, LineMatch.isFinished]
  by_cases h : m = .finished <;> simp [h]

/-- The latest session is what the matches leave when each session is dropped once the next opens. -/
theorem latest_ofMatches (ms : List LineMatch) : (ofMatches ms).latest = latestSession ms := by
  -- the session at hand is the latest one, unless that is over
  suffices h : (ofMatches ms).latest = latestSession ms ∧ (ofMatches ms).current =
      if (latestSession ms).getLast? = some .finished then [] else latestSession ms from h.1
  induction ms using List.reverseRecOn with
  | nil => exact ⟨rfl, rfl⟩
  | append_singleton ms m ih =>
    have hlatest : latestSession (ms ++ [m]) = (ofMatches ms).current ++ [m] := by
      rw [latestSession_concat, ih.2]
      split <;> rfl
    rw [ofMatches_concat, latest_push, current_push, hlatest, List.getLast?_concat]
    simp only [Option.some.injEq, and_self]

end Sessions

/-! ### The latest session as a block of matches -/

/-- Where the latest session starts: the last match stands there or behind it, the match before it
ends a session, if there is one, and of those from there on only the last may end one. -/
structure IsLatestStart (ms : List LineMatch) (start : Nat) : Prop where
  has_last : ms ≠ [] → start < ms.length
  opens : start = 0 ∨ ∃ before, start = before + 1 ∧ ms[before]? = some .finished
  last_only : ∀ i, start ≤ i → ms[i]? = some .finished → i + 1 = ms.length

/-- The latest session starts no earlier than at any such place. -/
theorem IsLatestStart.le {start other : Nat} (h : IsLatestStart ms start)
    (hother : IsLatestStart ms other) : other ≤ start := by
  rcases hother.opens with rfl | ⟨before, rfl, hover⟩
  · exact Nat.zero_le _
  · by_contra hlate
    obtain ⟨hlt, -⟩ := List.getElem?_eq_some_iff.1 hover
    have hlast := h.last_only before (by omega) hover
    have := hother.has_last (List.ne_nil_of_length_pos (by omega))
    omega

theorem isLatestStart_unique {start other : Nat} (h : IsLatestStart ms start)
    (hother : IsLatestStart ms other) : other = start :=
  Nat.le_antisymm (h.le hother) (hother.le h)

/-- What follows the earlier sessions is the latest one. -/
theorem LatestAfter.isLatestStart {earlier latest : List LineMatch}
    (h : LatestAfter ms earlier latest) : IsLatestStart ms earlier.length := by
  obtain ⟨rfl, hover, hsingle, hne⟩ := h
  refine ⟨fun hms => ?_, ?_, fun i hi hfinished => ?_⟩
  · have := List.length_pos_iff.2 (hne hms)
    rw [List.length_append]
    omega
  · rcases hover with rfl | hlast
    · exact Or.inl rfl
    · obtain ⟨front, rfl⟩ := List.getLast?_eq_some_iff.1 hlast
      refine Or.inr ⟨front.length, by simp, ?_⟩
      rw [List.append_assoc, List.getElem?_append_right (Nat.le_refl _), Nat.sub_self]
      rfl
  · rw [List.getElem?_append_right hi] at hfinished
    obtain ⟨hlt, hget⟩ := List.getElem?_eq_some_iff.1 hfinished
    rw [List.length_append]
    by_contra hearly
    have hfront : i - earlier.length < latest.dropLast.length := by
      rw [List.length_dropLast]
      omega
    refine hsingle (List.mem_iff_getElem.2 ⟨_, hfront, ?_⟩)
    rw [List.getElem_dropLast, hget]

/-- The last match of the latest session is the last match of all. -/
theorem getLast?_latestSession (ms : List LineMatch) :
    (latestSession ms).getLast? = ms.getLast? := by
  obtain ⟨earlier, hlatest⟩ := exists_latestAfter ms
  by_cases hms : ms = []
  · rw [hms]
    rfl
  · obtain ⟨front, last, hlast⟩ :=
      (List.eq_nil_or_concat (latestSession ms)).resolve_left (hlatest.latest_ne_nil hms)
    conv_rhs => rw [hlatest.eq_append, hlast, List.concat_eq_append, ← List.append_assoc]
    rw [hlast, List.concat_eq_append, List.getLast?_concat, List.getLast?_concat]

theorem latestSession_eq_nil_iff : latestSession ms = [] ↔ ms = [] := by
  rw [← List.getLast?_eq_none_iff, getLast?_latestSession, List.getLast?_eq_none_iff]

/-- Nothing follows the end in the latest session. -/
theorem eq_nil_of_latestSession_eq {before after : List LineMatch}
    (h : latestSession ms = before ++ .finished :: after) : after = [] := by
  obtain ⟨earlier, hlatest⟩ := exists_latestAfter ms
  by_contra hafter
  refine hlatest.latest_single ?_
  rw [h, List.dropLast_append_of_ne_nil (List.cons_ne_nil _ _), List.dropLast_cons_of_ne_nil hafter]
  exact List.mem_append_right _ List.mem_cons_self

/-! ### Lines of a text -/

/-- A line without the carriage return at its end. -/
def withoutReturn (cs : List Char) : List Char :=
  if cs.getLast? = some '\r' then cs.dropLast else cs

/-- The lines among the pieces between line feeds: all but the last piece are ended by a line feed,
and the last is one if it is not empty. -/
def linesOfPieces (pieces : List (List Char)) : List (List Char) :=
  pieces.dropLast.map withoutReturn ++
    if pieces.getLastD [] = [] then [] else [pieces.getLastD []]

def linesOfText (text : String) : List String :=
  (linesOfPieces (text.toList.splitOn '\n')).map String.ofList

theorem endLine_reverse (cs : List Char) : endLine cs.reverse = withoutReturn cs := by
  rcases List.eq_nil_or_concat cs with rfl | ⟨front, c, rfl⟩
  · rfl
  · rw [List.concat_eq_append, List.reverse_concat, withoutReturn, List.getLast?_concat,
      List.dropLast_concat]
    unfold endLine
    split
    · next heq =>
      obtain ⟨rfl, rfl⟩ := List.cons.inj heq
      rw [if_pos rfl, List.reverse_reverse]
    · next hother =>
      rw [if_neg fun h => hother front.reverse (by rw [Option.some.inj h]), List.reverse_cons,
        List.reverse_reverse]

theorem linesOfPieces_cons {pieces : List (List Char)} (h : pieces ≠ []) (piece : List Char) :
    linesOfPieces (piece :: pieces) = withoutReturn piece :: linesOfPieces pieces := by
  have hlast : (piece :: pieces).getLastD [] = pieces.getLastD [] := by
    cases pieces with
    | nil => exact absurd rfl h
    | cons next rest => rfl
  rw [linesOfPieces, List.dropLast_cons_of_ne_nil h, hlast, List.map_cons, List.cons_append,
    linesOfPieces]

theorem textLines_eq {done : List Char} (h : '\n' ∉ done) (cs : List Char) :
    textLines done cs = linesOfPieces ((done.reverse ++ cs).splitOn '\n') := by
  induction cs generalizing done with
  | nil =>
    have hpiece : '\n' ∉ done.reverse := by rwa [List.mem_reverse]
    rw [List.append_nil, List.splitOn_eq_singleton hpiece, textLines, linesOfPieces]
    simp
  | cons c cs ih =>
    rw [textLines]
    split
    · next hfeed =>
      have hpiece : '\n' ∉ done.reverse := by rwa [List.mem_reverse]
      rw [hfeed, List.splitOn_append_cons_self_of_not_mem hpiece,
        linesOfPieces_cons (List.splitOn_ne_nil _ _), ih List.not_mem_nil, ← endLine_reverse,
        List.reverse_reverse, List.reverse_nil, List.nil_append]
    · next hfeed =>
      have hdone : '\n' ∉ c :: done := by
        rw [List.mem_cons, not_or]
        exact ⟨Ne.symm hfeed, h⟩
      rw [ih hdone, List.reverse_cons, List.append_assoc, List.singleton_append]

theorem setupMatches_eq (text : String) :
    setupMatches text = (linesOfText text).filterMap readSetupLine := by
  rw [setupMatches, textLines_eq List.not_mem_nil, List.reverse_nil, List.nil_append, linesOfText,
    List.filterMap_map]
  rfl

/-! ### The log that is loaded -/

/-- The last complete line of a log that tells anything tells the end of a session. -/
def EndsFinished (bytes : List UInt8) : Prop :=
  ∃ before line after, endedLines bytes = before ++ line :: after ∧
    readSetupLine line = some .finished ∧ ∀ later ∈ after, readSetupLine later = none

theorem logMatches_eq (bytes : List UInt8) :
    logMatches bytes = (endedLines bytes).filterMap readSetupLine := by
  rw [logMatches, completeLines_eq_splitOn, endedLines, List.filterMap_map]
  rfl

theorem getLast?_loadedSession_iff {bytes : List UInt8} :
    (loadedSession bytes).getLast? = some .finished ↔ EndsFinished bytes := by
  rw [loadedSession_eq, getLast?_latestSession, logMatches_eq, List.getLast?_filterMap,
    List.findSome?_eq_some_iff, EndsFinished]
  constructor
  · rintro ⟨after, line, before, hlines, hline, hafter⟩
    refine ⟨before.reverse, line, after.reverse, ?_, hline, fun later hlater => ?_⟩
    · rw [← List.reverse_reverse (endedLines bytes), hlines]
      simp
    · exact hafter later (List.mem_reverse.1 hlater)
  · rintro ⟨before, line, after, hlines, hline, hafter⟩
    refine ⟨after.reverse, line, before.reverse, ?_, hline, fun later hlater => ?_⟩
    · rw [hlines]
      simp
    · exact hafter later (List.mem_reverse.1 hlater)

theorem LoadedLog.isFinished_ofBytes_iff {bytes : List UInt8} :
    (LoadedLog.ofBytes bytes).isFinished = true ↔ EndsFinished bytes := by
  rw [LoadedLog.ofBytes, beq_iff_eq, getLast?_loadedSession_iff]

/-- A log is loaded only if it can be read or is not there, and what is told of it depends on nothing
else. -/
theorem eq_of_loadLastSession {b after : Broadcaster} {path : String}
    {contents : Except FileFault (List UInt8)} {loaded : LoadedLog}
    (h : b.loadLastSession path contents = (.ok loaded, after)) :
    contents = .error .notFound ∧ loaded = ⟨0, false⟩ ∨
      ∃ bytes, contents = .ok bytes ∧ loaded = LoadedLog.ofBytes bytes := by
  cases contents with
  | error fault =>
    cases fault with
    | notFound =>
      cases h
      exact Or.inl ⟨rfl, rfl⟩
    | isDirectory | notText => cases h
  | ok bytes =>
    refine Or.inr ⟨bytes, rfl, ?_⟩
    cases hopen : b.isOpen with
    | true =>
      rw [Broadcaster.loadLastSession_of_isOpen hopen] at h
      cases h
      rfl
    | false =>
      rw [Broadcaster.loadLastSession_of_closed hopen] at h
      split at h <;> cases h
      rfl

/-! ### The latest session of a text and of a file -/

/-- What the latest session is of a text that is read line by line. -/
structure IsLatestBlock (text : String) (session : List LineMatch) : Prop where
  /-- It is what is left of the matches from the only place on at which it can start. -/
  block : ∃ start, IsLatestStart ((linesOfText text).filterMap readSetupLine) start ∧
    (∀ other, IsLatestStart ((linesOfText text).filterMap readSetupLine) other → other = start) ∧
      session = ((linesOfText text).filterMap readSetupLine).drop start
  nil_iff : session = [] ↔ ∀ line ∈ linesOfText text, readSetupLine line = none
  ends_last : ∀ before after, session = before ++ .finished :: after → after = []
  /-- It is the last session with a match, if each session is gathered for itself. -/
  eq_latest : session = (Sessions.ofMatches ((linesOfText text).filterMap readSetupLine)).latest
  flatten_sessions : (Sessions.ofMatches ((linesOfText text).filterMap readSetupLine)).all.flatten =
    (linesOfText text).filterMap readSetupLine

/-- What is told of the end of a log when it is loaded, whatever was published before. -/
structure TellsOfEnd (contents : Except FileFault (List UInt8)) : Prop where
  isFinished_iff : ∀ (b : Broadcaster) path loaded after,
    b.loadLastSession path contents = (.ok loaded, after) →
      (loaded.isFinished = true ↔ ∃ bytes, contents = .ok bytes ∧ EndsFinished bytes)
  /-- It is told of every log that can be read, as long as steps can be published. -/
  isTold : ∀ (b : Broadcaster) path bytes, b.isOpen = true → contents = .ok bytes →
    ∃ loaded after, b.loadLastSession path contents = (.ok loaded, after)

/-- The latest session goes from the last end before the very last match up to that match, and a log
that is loaded counts as finished exactly if nothing is told behind its last end. -/
theorem lastSession_isLatestBlock (text : String) (contents : Except FileFault (List UInt8)) :
    IsLatestBlock text (lastSession text) ∧ TellsOfEnd contents := by
  refine ⟨?_, ⟨fun b path loaded after h => ?_, ?_⟩⟩
  · rw [lastSession, setupMatches_eq]
    obtain ⟨earlier, hlatest⟩ := exists_latestAfter ((linesOfText text).filterMap readSetupLine)
    have hstart := hlatest.isLatestStart
    refine ⟨⟨_, hstart, fun other => isLatestStart_unique hstart, ?_⟩, ?_, ?_,
      (Sessions.latest_ofMatches _).symm, Sessions.flatten_all _⟩
    · conv_rhs => rw [hlatest.eq_append, List.drop_left]
    · rw [latestSession_eq_nil_iff, List.filterMap_eq_nil_iff]
    · exact fun before after => eq_nil_of_latestSession_eq
  · rcases eq_of_loadLastSession h with ⟨rfl, rfl⟩ | ⟨bytes, rfl, rfl⟩
    · simp
    · rw [LoadedLog.isFinished_ofBytes_iff]
      simp
  · rintro b path bytes hopen rfl
    exact ⟨_, _, Broadcaster.loadLastSession_of_isOpen hopen path bytes⟩

/-- A line that tells nothing belongs to no session, so the last end may be a session of its own. -/
example : lastSession "Setup wallets\r\nStart shell\nnoise\nStart shell\nnoise" = [.finished] := by
  decide +kernel

end FleetWatch
