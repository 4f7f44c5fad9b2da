import FleetWatch.Watch.Progress
/-!
What a watch of a log comes to.

A watch is a loop that stops when a line changes its progress to caught up.  Main statement: it reads
just the lines up to the first that says so, whatever the lines are and however they are read, and
its progress is what these lines tell together (`watchLines_sumsUp`).
-/

namespace FleetWatch

/-- Whether a height of this kind was reached, and is not one that the backend is heading for. -/
def ReadingKind.isReached : ReadingKind → Bool
  | .caughtUp | .current => true
  | .total => false

section

variable (read? : String → Option Reading)

/-- What a line tells without the blanks around it. -/
def toldBy (line : String) : Option Reading :=
  read? (Text.trim line)

/-- Whether a line says that the backend caught up. -/
def saysCaughtUp (line : String) : Bool :=
  (toldBy read? line).any fun r => r.kind == .caughtUp

/-- The lines up to the first that says that the backend caught up, or all of them. -/
def upToCaughtUp (lines : List String) : List String :=
  lines.take (lines.findIdx (saysCaughtUp read?) + 1)

/-- The heights that lines tell, of the kinds that count. -/
def heightsTold (counts : ReadingKind → Bool) (lines : List String) : List Nat :=
  ((lines.filterMap (toldBy read?)).filter fun r => counts r.kind).map Reading.height

/-- The progress that a watch shows, before its first line and after each line that it reads. -/
def watchShown : SyncProgress → List String → List SyncProgress
  | p, [] => [p]
  | p, line :: rest =>
    let next := p.apply read? (Text.trim line)
    p :: if next ≠ p ∧ next.caughtUp then [next] else watchShown next rest

end

variable {read? : String → Option Reading} {p : SyncProgress} {line : String} {lines : List String}

/-! ### One line -/

namespace SyncProgress

theorem apply_of_caughtUp (hp : p.caughtUp = true) (line : String) : p.apply read? line = p :=
  if_pos hp

theorem apply_of_none (htold : toldBy read? line = none) : p.apply read? (Text.trim line) = p := by
  rw [toldBy] at htold
  rw [apply, htold]
  exact ite_self p

theorem apply_of_some (hp : p.caughtUp = false) {r : Reading} (htold : toldBy read? line = some r) :
    p.apply read? (Text.trim line) = p.record r := by
  rw [toldBy] at htold
  rw [apply, htold, if_neg (by rw [hp]; exact Bool.false_ne_true)]

/-- A line that is not the last one leaves the backend catching up. -/
theorem caughtUp_apply (read? : String → Option Reading) (hp : p.caughtUp = false)
    (line : String) :
    (p.apply read? (Text.trim line)).caughtUp = saysCaughtUp read? line := by
  rw [saysCaughtUp]
  cases htold : toldBy read? line with
  | none => rw [apply_of_none htold, hp, Option.any_none]
  | some r =>
    rw [apply_of_some hp htold, Option.any_some]
    obtain ⟨kind, height⟩ := r
    cases kind <;> first | rfl | exact hp

theorem current_le_apply (read? : String → Option Reading) (p : SyncProgress) (line : String) :
    p.current ≤ (p.apply read? line).current := by
  unfold apply
  split
  · exact Nat.le_refl _
  · split
    · next r _ =>
      obtain ⟨kind, height⟩ := r
      cases kind <;> first | exact Nat.le_max_left _ _ | exact Nat.le_refl _
    · exact Nat.le_refl _

end SyncProgress

/-! ### The loop -/

theorem upToCaughtUp_cons (line : String) (lines : List String) :
    upToCaughtUp read? (line :: lines) =
      line :: if saysCaughtUp read? line then [] else upToCaughtUp read? lines := by
  rw [upToCaughtUp, List.findIdx_cons]
  cases saysCaughtUp read? line <;> rfl

/-- A watch stops after the lines up to the first that says so, and has applied each of them. -/
theorem watchLines_eq (read? : String → Option Reading) (hp : p.caughtUp = false)
    (lines : List String) :
    watchLines read? p lines =
      ((upToCaughtUp read? lines).foldl (fun p line => p.apply read? (Text.trim line)) p,
        (upToCaughtUp read? lines).length) := by
  induction lines generalizing p with
  | nil => rfl
  | cons line lines ih =>
    have hnext := SyncProgress.caughtUp_apply read? hp line
    rw [watchLines, upToCaughtUp_cons]
    cases htold : saysCaughtUp read? line with
    | true =>
      rw [htold] at hnext
      have hne : p.apply read? (Text.trim line) ≠ p := by
        intro heq
        rw [heq, hp] at hnext
        cases hnext
      rw [if_pos ⟨hne, hnext⟩]
      rfl
    | false =>
      rw [htold] at hnext
      rw [if_neg (by rw [hnext]; exact fun h => Bool.noConfusion h.2), ih hnext]
      rfl

/-! ### What the lines tell together -/

theorem heightsTold_append (read? : String → Option Reading) (counts : ReadingKind → Bool)
    (xs ys : List String) :
    heightsTold read? counts (xs ++ ys) =
      heightsTold read? counts xs ++ heightsTold read? counts ys := by
  simp only [heightsTold, List.filterMap_append, List.filter_append, List.map_append]

namespace SyncProgress

/-- The progress `q` is `p` with all that some lines tell taken in. -/
structure TakesIn (read? : String → Option Reading) (p : SyncProgress) (lines : List String)
    (q : SyncProgress) : Prop where
  current_eq : q.current = (heightsTold read? ReadingKind.isReached lines).foldl max p.current
  total_eq : q.total = (heightsTold read? (· == .total) lines).getLast?.getD p.total

theorem TakesIn.nil (p : SyncProgress) : TakesIn read? p [] p :=
  ⟨rfl, rfl⟩

theorem TakesIn.append {q r : SyncProgress} {xs ys : List String} (hxs : TakesIn read? p xs q)
    (hys : TakesIn read? q ys r) : TakesIn read? p (xs ++ ys) r where
  current_eq := by
    rw [hys.current_eq, hxs.current_eq, heightsTold_append, List.foldl_append]
  total_eq := by
    rw [hys.total_eq, hxs.total_eq, heightsTold_append, List.getLast?_append]
    cases (heightsTold read? (· == .total) ys).getLast? <;> rfl

theorem TakesIn.apply (read? : String → Option Reading) (hp : p.caughtUp = false)
    (line : String) :
    TakesIn read? p [line] (p.apply read? (Text.trim line)) := by
  cases htold : toldBy read? line with
  | none =>
    rw [apply_of_none htold]
    constructor <;> simp [heightsTold, htold]
  | some r =>
    rw [apply_of_some hp htold]
    obtain ⟨kind, height⟩ := r
    constructor <;> cases kind <;> simp [heightsTold, htold, ReadingKind.isReached, record]

/-- After the lines up to the first that says that the backend caught up, the progress is what they
tell, and says so just if there is such a line. -/
theorem takesIn_upToCaughtUp (read? : String → Option Reading) (hp : p.caughtUp = false)
    (lines : List String) :
    TakesIn read? p (upToCaughtUp read? lines)
        ((upToCaughtUp read? lines).foldl (fun p line => p.apply read? (Text.trim line)) p) ∧
      ((upToCaughtUp read? lines).foldl (fun p line => p.apply read? (Text.trim line)) p).caughtUp =
        lines.any (saysCaughtUp read?) := by
  induction lines generalizing p with
  | nil => exact ⟨.nil p, hp⟩
  | cons line lines ih =>
    have hfirst := TakesIn.apply read? hp line
    have hnext := caughtUp_apply read? hp line
    rw [upToCaughtUp_cons, List.any_cons]
    cases htold : saysCaughtUp read? line with
    | true => exact ⟨hfirst, hnext.trans htold⟩
    | false =>
      obtain ⟨hrest, hcaughtUp⟩ := ih (hnext.trans htold)
      exact ⟨hfirst.append hrest, hcaughtUp⟩

end SyncProgress

/-! ### What is shown on the way -/

/-- What a watch shows last is its progress, and it shows one more than there are lines read. -/
theorem watchShown_last (p : SyncProgress) (lines : List String) :
    (watchShown read? p lines).getLast? = some (watchLines read? p lines).1 ∧
      (watchShown read? p lines).length = (watchLines read? p lines).2 + 1 := by
  induction lines generalizing p with
  | nil => exact ⟨rfl, rfl⟩
  | cons line lines ih =>
    obtain ⟨hlast, hlength⟩ := ih (p.apply read? (Text.trim line))
    rw [watchShown, watchLines]
    dsimp only
    split
    · exact ⟨rfl, rfl⟩
    · refine ⟨?_, congrArg Nat.succ hlength⟩
      rw [List.getLast?_cons, hlast]
      rfl

/-- No progress that is shown is behind the one before a watch. -/
theorem current_le_of_mem_watchShown {q : SyncProgress} (hq : q ∈ watchShown read? p lines) :
    p.current ≤ q.current := by
  induction lines generalizing p with
  | nil =>
    rw [watchShown, List.mem_singleton] at hq
    exact Nat.le_of_eq (congrArg SyncProgress.current hq.symm)
  | cons line lines ih =>
    have hle := SyncProgress.current_le_apply read? p (Text.trim line)
    rw [watchShown, List.mem_cons] at hq
    rcases hq with rfl | hq
    · exact Nat.le_refl _
    · split at hq
      · rw [List.mem_singleton] at hq
        rwa [hq]
      · exact Nat.le_trans hle (ih hq)

/-- The height never goes back, and only the last progress that is shown may say caught up. -/
theorem watchShown_rises (hp : p.caughtUp = false) (lines : List String) :
    (watchShown read? p lines).Pairwise fun q later =>
      q.current ≤ later.current ∧ q.caughtUp = false := by
  induction lines generalizing p with
  | nil => exact List.pairwise_singleton _ _
  | cons line lines ih =>
    have hahead : ∀ q ∈ watchShown read? p (line :: lines), p.current ≤ q.current :=
      fun q => current_le_of_mem_watchShown
    rw [watchShown] at hahead ⊢
    refine List.Pairwise.cons (fun q hq => ⟨hahead q (List.mem_cons_of_mem _ hq), hp⟩) ?_
    split
    · exact List.pairwise_singleton _ _
    · next hgoesOn =>
      cases hnext : (p.apply read? (Text.trim line)).caughtUp with
      | false => exact ih hnext
      | true =>
        refine absurd ⟨fun heq => ?_, hnext⟩ hgoesOn
        rw [heq, hp] at hnext
        cases hnext

/-! ### The watch as a whole -/

/-- What a watch of some lines comes to. -/
structure SumsUp (read? : String → Option Reading) (lines : List String) : Prop where
  /-- It reads the lines up to the first that says that the backend caught up. -/
  count_eq : (watchLines read? {} lines).2 =
    min (lines.findIdx (saysCaughtUp read?) + 1) lines.length
  /-- Its height is the greatest that these lines say was reached. -/
  current_eq :
    (0 :: heightsTold read? ReadingKind.isReached
      (lines.take (watchLines read? {} lines).2)).max? = some (watchLines read? {} lines).1.current
  /-- Its total is the last that they tell. -/
  total_eq : (watchLines read? {} lines).1.total =
    (heightsTold read? (· == .total) (lines.take (watchLines read? {} lines).2)).getLast?.getD 0
  caughtUp_iff : (watchLines read? {} lines).1.caughtUp = true ↔
    ∃ line ∈ lines, saysCaughtUp read? line = true
  /-- What it shows ends with this progress. -/
  shown_last : (watchShown read? {} lines).getLast? = some (watchLines read? {} lines).1 ∧
    (watchShown read? {} lines).length = (watchLines read? {} lines).2 + 1
  /-- On the way the height never goes back, and only the last progress may say caught up. -/
  rises : (watchShown read? {} lines).Pairwise fun q later =>
    q.current ≤ later.current ∧ q.caughtUp = false
  /-- A watch that caught up would learn nothing from any other line. -/
  is_final : (watchLines read? {} lines).1.caughtUp = true →
    ∀ line, (watchLines read? {} lines).1.apply read? line = (watchLines read? {} lines).1

/-- A watch reads the lines up to the first that says that the backend caught up, and its progress is
what they tell, however lines are read. -/
theorem watchLines_sumsUp (read? : String → Option Reading) (lines : List String) :
    SumsUp read? lines := by
  have hstart : ({} : SyncProgress).caughtUp = false := rfl
  obtain ⟨htakesIn, hcaughtUp⟩ := SyncProgress.takesIn_upToCaughtUp read? hstart lines
  have hrun := watchLines_eq read? hstart lines
  have htake : lines.take (upToCaughtUp read? lines).length = upToCaughtUp read? lines := by
    rw [upToCaughtUp, List.length_take, ← List.take_eq_take_min]
  refine ⟨?_, ?_, ?_, ?_, watchShown_last {} lines, watchShown_rises hstart lines,
    SyncProgress.apply_of_caughtUp⟩
  · rw [hrun, upToCaughtUp, List.length_take]
  · rw [hrun, htake, htakesIn.current_eq, List.max?_cons']
  · rw [hrun, htake, htakesIn.total_eq]
  · rw [hrun, hcaughtUp, List.any_eq_true]

/-- A height that goes back, a total that is told twice and a line after the last one that counts. -/
example : watchLines (PatternSet.neutrino true) {}
    ["Writing cfheaders at height=400 to next checkpoint",
      " Syncing to block height 900 from peer a", "Writing cfheaders at height=3 to next checkpoint",
      "Syncing to block height 700 from peer b",
      "Fully caught up with cfheaders at height 20, waiting at tip for new blocks",
      "Writing cfheaders at height=5000 to next checkpoint"] =
    ({ current := 400, total := 700, caughtUp := true }, 5) := by
  decide +kernel

end FleetWatch
