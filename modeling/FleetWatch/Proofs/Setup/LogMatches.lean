import FleetWatch.Proofs.Container.CompleteLines
import FleetWatch.Proofs.Text.Ending
import FleetWatch.Setup.Broadcast
import Mathlib.Data.List.Find
/-!
What the complete lines of a setup log tell.

A log that is there already is read as one text, and a log that grows is read line by line.  Both
ways tell the same of the same bytes: a text is cut where its bytes are, and a carriage return at the
end of a line makes no difference to what the line tells.
-/

namespace FleetWatch

/-- What the complete lines of a log tell, in order. -/
def logMatches (bytes : List UInt8) : List LineMatch :=
  (completeLines bytes).filterMap fun line => readSetupLine (decodeLine line)

/-- What is added to a log tells what it completes. -/
theorem logMatches_append (loaded later : List UInt8) :
    logMatches (loaded ++ later) =
      logMatches loaded ++ logMatches (unfinishedLine loaded ++ later) := by
  rw [logMatches, completeLines_append, List.filterMap_append]
  rfl

/-! ### Ends of lines -/

theorem contains_concat {step : String} (hne : step.toList ≠ []) (h : '\r' ∉ step.toList)
    (cs : List Char) :
    Text.contains (String.ofList (cs ++ ['\r'])) step = Text.contains (String.ofList cs) step := by
  simp only [Text.contains, String.toList_ofList]
  exact Text.occursIn_concat hne h cs

theorem lightSyncDetails_concat (cs : List Char) :
    lightSyncDetails (String.ofList (cs ++ ['\r'])) = lightSyncDetails (String.ofList cs) := by
  simp only [lightSyncDetails, String.toList_ofList]
  rw [Text.splitOnce?_concat (by decide) (by decide)]
  cases Text.splitOnce? "[LightSync]".toList cs with
  | none => rfl
  | some parts => simp only [Option.map_some, Text.trimChars_concat (c := '\r') (by decide)]

/-- No text that tells a step has a carriage return. -/
theorem return_not_mem_plainMilestones :
    ∀ step ∈ plainMilestones, step.toList ≠ [] ∧ '\r' ∉ step.toList := by
  decide

/-- A carriage return at its end makes no difference to what a line tells. -/
theorem readSetupLine_concat (cs : List Char) :
    readSetupLine (String.ofList (cs ++ ['\r'])) = readSetupLine (String.ofList cs) := by
  have hplain : (plainMilestones.find? fun step =>
      Text.contains (String.ofList (cs ++ ['\r'])) step) =
        plainMilestones.find? fun step => Text.contains (String.ofList cs) step := by
    refine List.find?_congr fun step hstep => ?_
    obtain ⟨hne, hreturn⟩ := return_not_mem_plainMilestones step hstep
    exact contains_concat hne hreturn cs
  rw [readSetupLine, readSetupLine, contains_concat (by decide) (by decide),
    lightSyncDetails_concat, hplain, contains_concat (by decide) (by decide)]

theorem readSetupLine_endLine (cs : List Char) :
    readSetupLine (String.ofList (endLine cs.reverse)) = readSetupLine (String.ofList cs) := by
  rcases List.eq_nil_or_concat cs with rfl | ⟨front, c, rfl⟩
  · rfl
  · rw [List.concat_eq_append, List.reverse_append, List.reverse_singleton, List.singleton_append]
    unfold endLine
    split
    · next done heq =>
      obtain ⟨rfl, rfl⟩ := List.cons.inj heq
      rw [List.reverse_reverse, readSetupLine_concat]
    · rw [List.reverse_cons, List.reverse_reverse]

theorem readSetupLine_trimmed {cs : List Char} (h : '\n' ∉ cs) :
    readSetupLine (String.ofList (cs.reverse.dropWhile fun c => c == '\n' || c == '\r').reverse) =
      readSetupLine (String.ofList cs) := by
  induction cs using List.reverseRecOn with
  | nil => rfl
  | append_singleton cs c ih =>
    rw [List.mem_append, List.mem_singleton, not_or] at h
    rw [List.reverse_append, List.reverse_singleton, List.singleton_append]
    by_cases hreturn : c = '\r'
    · rw [List.dropWhile_cons_of_pos (by simp [hreturn]), ih h.1, hreturn, readSetupLine_concat]
    · rw [List.dropWhile_cons_of_neg (by simp [hreturn, Ne.symm h.2]), List.reverse_cons,
        List.reverse_reverse]

/-- A line that a line feed ends tells the same, by whichever of both ways its end is cut. -/
theorem readSetupLine_decodeLine {raw : List UInt8} (h : 10 ∉ raw) :
    readSetupLine (decodeLine raw) =
      readSetupLine (String.ofList (endLine (Text.decodeLossy raw).reverse)) := by
  rw [readSetupLine_endLine, decodeLine,
    readSetupLine_trimmed (Text.feed_not_mem_decodeLossy h)]

/-! ### The log that is there already -/

theorem textLines_line {cs : List Char} (h : '\n' ∉ cs) (done rest : List Char) :
    textLines done (cs ++ '\n' :: rest) = endLine (cs.reverse ++ done) :: textLines [] rest := by
  induction cs generalizing done with
  | nil => rw [List.nil_append, textLines, if_pos rfl, List.reverse_nil, List.nil_append]
  | cons c cs ih =>
    rw [List.mem_cons, not_or] at h
    rw [List.cons_append, textLines, if_neg (Ne.symm h.1), ih h.2, List.reverse_cons,
      List.append_assoc, List.singleton_append]

/-- The lines of a text are those of its bytes. -/
theorem textLines_decodeLossy {lines : List (List UInt8)} (h : ∀ line ∈ lines, 10 ∉ line) :
    textLines [] (Text.decodeLossy (lines.flatMap (· ++ [10]))) =
      lines.map fun line => endLine (Text.decodeLossy line).reverse := by
  induction lines with
  | nil => simp [Text.decodeLossy, textLines]
  | cons line lines ih =>
    rw [List.forall_mem_cons] at h
    rw [List.flatMap_cons, List.append_assoc, List.singleton_append, Text.decodeLossy_append_feed,
      textLines_line (Text.feed_not_mem_decodeLossy h.1), ih h.2, List.append_nil, List.map_cons]

theorem completePart_eq (bytes : List UInt8) :
    completePart bytes = (completeLines bytes).flatMap (· ++ [10]) := by
  have hrest : ∀ b ∈ (unfinishedLine bytes).reverse, (b != 10) = true := by
    intro b hb
    rw [List.mem_reverse] at hb
    exact bne_iff_ne.mpr fun heq => feed_not_mem_unfinishedLine bytes (heq ▸ hb)
  have hbytes := flatMap_completeLines_append bytes
  rw [completePart]
  conv_lhs => rw [← hbytes]
  rw [List.reverse_append, List.dropWhile_append_of_pos hrest]
  rcases List.eq_nil_or_concat (completeLines bytes) with hnil | ⟨front, last, hlast⟩
  · rw [hnil]
    rfl
  · rw [hlast, List.concat_eq_append, List.flatMap_append, List.flatMap_singleton,
      ← List.append_assoc, List.reverse_append, List.reverse_singleton, List.singleton_append,
      List.dropWhile_cons_of_neg (by simp), List.reverse_cons, List.reverse_reverse]

theorem completePart_append_unfinishedLine (bytes : List UInt8) :
    completePart bytes ++ unfinishedLine bytes = bytes := by
  rw [completePart_eq, flatMap_completeLines_append]

/-- A log that is there already tells the latest of the sessions that its complete lines tell. -/
theorem loadedSession_eq (bytes : List UInt8) :
    loadedSession bytes = latestSession (logMatches bytes) := by
  have hfeeds : ∀ line ∈ completeLines bytes, 10 ∉ line := feed_not_mem_of_mem_completeLines
  rw [loadedSession, lastSession, setupMatches, Text.lossyString, String.toList_ofList,
    completePart_eq, textLines_decodeLossy hfeeds, List.filterMap_map, logMatches]
  congr 1
  refine List.filterMap_congr fun line hline => ?_
  exact (readSetupLine_decodeLine (hfeeds line hline)).symm

/-! ### Sessions -/

/-- How matches are those of earlier sessions and of the latest one: each earlier session is over,
and nothing follows the end of the latest one. -/
structure LatestAfter (ms earlier latest : List LineMatch) : Prop where
  eq_append : ms = earlier ++ latest
  earlier_over : earlier = [] ∨ earlier.getLast? = some .finished
  latest_single : .finished ∉ latest.dropLast
  latest_ne_nil : ms ≠ [] → latest ≠ []

theorem latestSession_concat (ms : List LineMatch) (m : LineMatch) :
    latestSession (ms ++ [m]) =
      if (latestSession ms).getLast? = some .finished then [m] else latestSession ms ++ [m] := by
  simp only [latestSession, List.foldl_append, List.foldl_cons, List.foldl_nil,
    List.getLast?_reverse]
  cases ms.foldl extendSession [] with
  | nil => rfl
  | cons last rest => cases last <;> simp [extendSession]

/-- The latest session is what is left of the matches after the earlier ones. -/
theorem exists_latestAfter (ms : List LineMatch) :
    ∃ earlier, LatestAfter ms earlier (latestSession ms) := by
  induction ms using List.reverseRecOn with
  | nil => exact ⟨[], rfl, Or.inl rfl, List.not_mem_nil, fun h => h⟩
  | append_singleton ms m ih =>
    obtain ⟨earlier, heq, hover, hsingle, hne⟩ := ih
    rw [latestSession_concat]
    split
    · next hfinished =>
      refine ⟨ms, rfl, Or.inr ?_, List.not_mem_nil, fun _ => List.cons_ne_nil _ _⟩
      rw [heq, List.getLast?_append, hfinished]
      rfl
    · next hgoing =>
      refine ⟨earlier, ?_, hover, ?_, fun _ => by simp⟩
      · rw [← List.append_assoc, ← heq]
      · rw [List.dropLast_concat]
        intro hmem
        rcases List.eq_nil_or_concat (latestSession ms) with hnil | ⟨front, last, hlast⟩
        · rw [hnil] at hmem
          exact List.not_mem_nil hmem
        · rw [List.concat_eq_append] at hlast
          rw [hlast, List.dropLast_concat] at hsingle
          rw [hlast, List.getLast?_concat] at hgoing
          rw [hlast] at hmem
          rcases List.mem_append.mp hmem with hfront | hend
          · exact hsingle hfront
          · exact hgoing (congrArg some (List.mem_singleton.mp hend).symm)

end FleetWatch
