import FleetWatch.Proofs.Setup.Accepted
/-!
Runs of a hub as one of its subscribers sees them.

A `Receipt` holds what the subscriber asked of the history when it joined, what was published since,
and what it has got.  The receipt alone says what the subscriber is given next: the rest of the
replay, and then the steps that are outstanding, of which only the latest `liveCapacity` are kept.
`SetupHub.Follows` ties a hub to a receipt, and `SetupHub.Follows.step_advances` says that every
action keeps the tie.
-/

namespace FleetWatch

/-- How many of the steps in the history are asked for. -/
def Replay.count (r : Replay) (retained : Nat) : Nat :=
  match r with
  | .none => 0
  | .last n => min n retained
  | .all => retained

theorem Replay.drop_skip {α : Type} (r : Replay) (xs : List α) :
    xs.drop (r.skip xs.length) = lastOf (r.count xs.length) xs := by
  rw [lastOf]
  congr 1
  cases r <;> simp only [skip, count] <;> omega

/-! ### Runs of a hub -/

/-- Whether an action leaves a subscriber its subscription: it is neither dropped nor replaced. -/
def SetupAction.keeps (who : String) : SetupAction → Bool
  | .subscribe w _ => w != who
  | .unsubscribe w => w != who
  | _ => true

namespace SetupHub

/-- A hub that nothing was published to and nobody subscribed to. -/
def start (capacity : Nat) : SetupHub :=
  { broadcaster := Broadcaster.create capacity }

/-- The hub after actions. -/
def after (h : SetupHub) (actions : List SetupAction) : SetupHub :=
  actions.foldl (fun h a => (h.step a).2) h

/-- The actions with their answers. -/
def answers (h : SetupHub) : List SetupAction → List (SetupAction × SetupAnswer)
  | [] => []
  | a :: rest => (a, (h.step a).1) :: (h.step a).2.answers rest

theorem after_append (h : SetupHub) (first second : List SetupAction) :
    h.after (first ++ second) = (h.after first).after second :=
  List.foldl_append

theorem after_append_singleton (h : SetupHub) (actions : List SetupAction) (a : SetupAction) :
    h.after (actions ++ [a]) = ((h.after actions).step a).2 :=
  h.after_append actions [a]

theorem answers_append_singleton (h : SetupHub) (actions : List SetupAction) (a : SetupAction) :
    h.answers (actions ++ [a]) = h.answers actions ++ [(a, ((h.after actions).step a).1)] := by
  induction actions generalizing h with
  | nil => rfl
  | cons first rest ih => simp only [List.cons_append, answers, ih, after, List.foldl_cons]

@[simp] theorem subscription?_replace_self (h : SetupHub) (who : String) (s : Subscription) :
    (h.replace who s).subscription? who = some s := by
  have hnone : (h.subscriptions.filter fun o => o.1 != who).find? (fun o => o.1 == who) = none := by
    simp [List.find?_eq_none]
  simp [subscription?, replace, List.find?_append, hnone]

theorem subscription?_replace_of_ne (h : SetupHub) {other who : String} (ne : other ≠ who)
    (s : Subscription) : (h.replace other s).subscription? who = h.subscription? who := by
  simp only [subscription?, replace, List.find?_append, List.find?_filter]
  congr 1
  rw [List.find?_cons_of_neg (by simpa using ne), List.find?_nil, Option.or_none]
  congr 1
  funext o
  by_cases ho : o.1 = who
  · simp [ho, ne.symm]
  · simp [ho]

theorem subscription?_remove_of_ne (h : SetupHub) {other who : String} (ne : other ≠ who) :
    (h.remove other).subscription? who = h.subscription? who := by
  simp only [subscription?, remove, List.find?_filter]
  congr 2
  funext o
  by_cases ho : o.1 = who
  · simp [ho, ne.symm]
  · simp [ho]

end SetupHub

/-! ### Receipts -/

/-- The step that an answer publishes, if any. -/
def published? : SetupAction × SetupAnswer → Option SetupMilestone
  | (_, .published m) => some m
  | _ => none

/-- The steps that an answer hands to a subscriber. -/
def handedTo (who : String) : SetupAction × SetupAnswer → List SetupMilestone
  | (.poll w, .delivered (.milestone m)) => if w = who then [m] else []
  | (.drain w, .drained items _) => if w = who then items else []
  | _ => []

theorem handedTo_poll_of_ne {w who : String} (ne : w ≠ who) (d : Delivery) :
    handedTo who (.poll w, .delivered d) = [] := by
  cases d <;> simp [handedTo, ne]

/-- What a subscriber asked of the history, what was published since it joined, and what it has
got. -/
structure Receipt where
  asked : List SetupMilestone
  published : List SetupMilestone
  received : List SetupMilestone

namespace Receipt

/-- What was received after the replay. -/
def live (r : Receipt) : List SetupMilestone :=
  r.received.drop r.asked.length

/-- What was published since the latest live step that was received. -/
def outstanding (r : Receipt) : List SetupMilestone :=
  match r.live.getLast? with
  | none => r.published
  | some last => r.published.filter fun m => last.seq < m.seq

/-- The oldest outstanding steps, which are too many to be kept. -/
def overdue (r : Receipt) : List SetupMilestone :=
  r.outstanding.take (r.outstanding.length - liveCapacity)

/-- What is kept for the subscriber. -/
def retained (r : Receipt) : List SetupMilestone :=
  r.asked.drop r.received.length ++ lastOf liveCapacity r.outstanding

/-- What the subscriber is told when it asks for one step. -/
def delivery (r : Receipt) (isOpen : Bool) : Delivery :=
  match r.retained with
  | m :: _ => .milestone m
  | [] => if isOpen then .pending else .ended

/-- Whether an action is a look of the subscriber at the live steps. -/
def looksAtLive (r : Receipt) (who : String) : SetupAction → Bool
  | .poll w => w == who && r.asked.length ≤ r.received.length
  | .drain w => w == who
  | _ => false

/-- The steps that an action makes the subscriber miss. -/
def passedOver (r : Receipt) (who : String) (a : SetupAction) : List SetupMilestone :=
  if r.looksAtLive who a then r.overdue else []

/-- The receipt after one more action. -/
def add (r : Receipt) (who : String) (e : SetupAction × SetupAnswer) : Receipt :=
  { r with
    published := r.published ++ (published? e).toList
    received := r.received ++ handedTo who e }

theorem live_eq_nil {r : Receipt} (h : r.received.length ≤ r.asked.length) : r.live = [] :=
  List.drop_eq_nil_of_le h

theorem live_append {r : Receipt} (hdrained : r.asked.length ≤ r.received.length)
    (got : List SetupMilestone) :
    ({ r with received := r.received ++ got } : Receipt).live = r.live ++ got :=
  List.drop_append_of_le_length hdrained

theorem overdue_append (r : Receipt) :
    r.overdue ++ lastOf liveCapacity r.outstanding = r.outstanding :=
  List.take_append_drop _ _

theorem add_eq_self {r : Receipt} {who : String} {e : SetupAction × SetupAnswer}
    (hpublished : published? e = none) (hhanded : handedTo who e = []) : r.add who e = r := by
  simp [add, hpublished, hhanded]

theorem add_poll (r : Receipt) (who : String) (m : SetupMilestone) :
    r.add who (.poll who, .delivered (.milestone m)) = { r with received := r.received ++ [m] } := by
  simp [add, published?, handedTo]

theorem add_drain (r : Receipt) (who : String) (items : List SetupMilestone) (hasEnded : Bool) :
    r.add who (.drain who, .drained items hasEnded) =
      { r with received := r.received ++ items } := by
  simp [add, published?, handedTo]

end Receipt

namespace SetupHub

/-- The receipt of a subscriber of the hub who asked for a part of the history. -/
def receipt (h : SetupHub) (who : String) (asked : List SetupMilestone)
    (actions : List SetupAction) : Receipt :=
  { asked
    published := (h.answers actions).filterMap published?
    received := (h.answers actions).flatMap (handedTo who) }

theorem receipt_append_singleton (h : SetupHub) (who : String) (asked : List SetupMilestone)
    (actions : List SetupAction) (a : SetupAction) :
    h.receipt who asked (actions ++ [a]) =
      (h.receipt who asked actions).add who (a, ((h.after actions).step a).1) := by
  simp only [receipt, Receipt.add, answers_append_singleton, List.filterMap_append,
    List.flatMap_append, List.flatMap_singleton]
  cases hp : published? (a, ((h.after actions).step a).1) <;> simp [hp]

/-- How a hub stands to the receipt of a subscriber: `earlier` was accepted before the subscriber
joined, and `passed` of the steps published since are behind it, received or not. -/
structure Follows (h : SetupHub) (who : String) (r : Receipt) (earlier : List SetupMilestone)
    (passed : Nat) : Prop where
  accepted : h.broadcaster.Accepted (earlier ++ r.published)
  asked_suffix : r.asked <:+ earlier
  subscribed : h.subscription? who = some
      { replayed := r.asked.drop r.received.length, next := some (earlier.length + passed + 1) } ∨
    h.subscription? who = some { replayed := r.asked.drop r.received.length, next := none } ∧
      h.broadcaster.isOpen = false ∧ r.published = []
  received_eq : r.received = r.asked.take r.received.length ++ r.live
  passed_le : passed ≤ r.published.length
  live_sublist : r.live.Sublist (r.published.take passed)
  latest : r.live = [] ∧ passed = 0 ∨
    0 < passed ∧ r.live.getLast? = r.published[passed - 1]?

namespace Follows

variable {h h' : SetupHub} {who : String} {r : Receipt} {earlier : List SetupMilestone}
  {passed : Nat}

theorem congr (hf : h.Follows who r earlier passed) (hb : h'.broadcaster = h.broadcaster)
    (hs : h'.subscription? who = h.subscription? who) : h'.Follows who r earlier passed :=
  ⟨hb ▸ hf.accepted, hf.asked_suffix, by rw [hb, hs]; exact hf.subscribed, hf.received_eq,
    hf.passed_le, hf.live_sublist, hf.latest⟩

theorem published_numbered (hf : h.Follows who r earlier passed) :
    NumberedFrom (earlier.length + 1) r.published := by
  have := (NumberedFrom.append_iff.mp hf.accepted.numbered).2
  rwa [Nat.add_comm] at this

/-- What is outstanding is what is not behind the subscriber. -/
theorem outstanding_eq (hf : h.Follows who r earlier passed) :
    r.outstanding = r.published.drop passed := by
  rcases hf.latest with ⟨hlive, rfl⟩ | ⟨hpos, hlast⟩
  · simp [Receipt.outstanding, hlive]
  · have hlt : passed - 1 < r.published.length := by
      have := hf.passed_le
      omega
    have hseq : (r.published[passed - 1]).seq = earlier.length + passed := by
      have hdrop := hf.published_numbered.drop (k := passed - 1) (Nat.le_of_lt hlt)
      rw [List.drop_eq_getElem_cons hlt] at hdrop
      have := hdrop.1
      omega
    rw [Receipt.outstanding, hlast, List.getElem?_eq_getElem hlt]
    have hfilter := hf.published_numbered.filter_le (earlier.length + passed + 1)
    have hk : earlier.length + passed + 1 - (earlier.length + 1) = passed := by omega
    simpa only [hseq, Nat.lt_iff_add_one_le, hk] using hfilter

/-- What the broadcaster keeps from the subscriber's place on is the end of what is outstanding. -/
theorem recent_filter (hf : h.Follows who r earlier passed) :
    (h.broadcaster.recent.filter fun m => earlier.length + passed + 1 ≤ m.seq) =
      lastOf liveCapacity r.outstanding := by
  rw [hf.accepted.recent_eq, hf.accepted.numbered.filter_lastOf, List.drop_length_add_append,
    hf.outstanding_eq]

/-- Some more of the replay is handed over. -/
theorem take_replay (hf : h.Follows who r earlier passed) (count : Nat) (h' : SetupHub)
    (hcount : r.received.length + count ≤ r.asked.length) (hb : h'.broadcaster = h.broadcaster)
    (hs : h'.subscription? who = (h.subscription? who).map fun s =>
      { s with replayed := s.replayed.drop count }) :
    let got := (r.asked.drop r.received.length).take count
    h'.Follows who { r with received := r.received ++ got } earlier passed := by
  intro got
  have hgot : got.length = count := by
    simp only [got, List.length_take, List.length_drop]
    omega
  have hlen : (r.received ++ got).length = r.received.length + count := by
    rw [List.length_append, hgot]
  have hlive : r.live = [] := Receipt.live_eq_nil (by omega)
  have hlive' : ({ r with received := r.received ++ got } : Receipt).live = [] :=
    Receipt.live_eq_nil (by simp only [hlen]; omega)
  have hreceived : r.received = r.asked.take r.received.length := by
    simpa [hlive] using hf.received_eq
  refine ⟨hb ▸ hf.accepted, hf.asked_suffix, ?_, ?_, hf.passed_le, ?_, ?_⟩
  · rw [hs, hb]
    rcases hf.subscribed with hsub | ⟨hsub, hclosed⟩
    · left
      simp [hsub, hlen, List.drop_drop]
    · right
      simp [hsub, hlen, List.drop_drop, hclosed]
  · rw [hlive', List.append_nil]
    change r.received ++ got = r.asked.take (r.received ++ got).length
    rw [hlen, List.take_add, ← hreceived]
  · simp [hlive']
  · have hpassed := hf.latest
    rw [hlive] at hpassed
    rcases hpassed with ⟨-, hzero⟩ | ⟨hpos, hlast⟩
    · exact Or.inl ⟨hlive', hzero⟩
    · have := hf.passed_le
      have hnone := List.getElem?_eq_none_iff.mp hlast.symm
      omega

/-- Behind the first `passed` steps come those that are overdue and then those that are kept. -/
theorem take_published (hf : h.Follows who r earlier passed) {count : Nat}
    {got : List SetupMilestone} (hgot : (lastOf liveCapacity r.outstanding).take count = got) :
    passed + r.overdue.length + got.length ≤ r.published.length ∧
      r.published.take (passed + r.overdue.length + got.length) =
        r.published.take passed ++ r.overdue ++ got := by
  have hout : r.published.drop passed = r.overdue ++ lastOf liveCapacity r.outstanding := by
    rw [r.overdue_append, hf.outstanding_eq]
  have hgot' : (lastOf liveCapacity r.outstanding).take got.length = got := by
    rw [← hgot, List.length_take, ← List.take_take, List.take_length]
  constructor
  · have h1 := congrArg List.length hout
    have h2 := congrArg List.length hgot'
    have := hf.passed_le
    simp only [List.length_append, List.length_drop, List.length_take] at h1 h2
    omega
  · rw [Nat.add_assoc, List.take_add, hout, List.take_length_add_append, hgot', List.append_assoc]

/-- The replay is drained, and some of what is kept for the subscriber is handed over: what is
overdue is passed over. -/
theorem take_live (hf : h.Follows who r earlier passed)
    (hdrained : r.asked.length ≤ r.received.length) {count : Nat}
    {got : List SetupMilestone} (hgot : (lastOf liveCapacity r.outstanding).take count = got)
    (hne : got ≠ []) (h' : SetupHub) (hb : h'.broadcaster = h.broadcaster)
    (hs : h'.subscription? who =
      some ⟨[], some (earlier.length + (passed + r.overdue.length + got.length) + 1)⟩) :
    h'.Follows who { r with received := r.received ++ got } earlier
      (passed + r.overdue.length + got.length) := by
  obtain ⟨hlen, htake⟩ := hf.take_published hgot
  have hlive := Receipt.live_append hdrained got
  have hpos : 0 < got.length := List.length_pos_iff.mpr hne
  refine ⟨hb ▸ hf.accepted, hf.asked_suffix, Or.inl ?_, ?_, hlen, ?_, Or.inr ⟨by omega, ?_⟩⟩
  · rw [hs, List.drop_eq_nil_of_le]
    simp only [List.length_append]
    omega
  · have hfirst := hf.received_eq
    rw [List.take_of_length_le hdrained] at hfirst
    rw [hlive, ← List.append_assoc, List.take_of_length_le, ← hfirst]
    simp only [List.length_append]
    omega
  · rw [hlive, htake]
    exact (hf.live_sublist.trans (List.sublist_append_left _ _)).append (List.Sublist.refl _)
  · rw [hlive, List.getLast?_append_of_ne_nil _ hne]
    have hlast : (r.published.take (passed + r.overdue.length + got.length)).getLast? =
        got.getLast? := by
      rw [htake, List.getLast?_append_of_ne_nil _ hne]
    rw [← hlast, List.getLast?_eq_getElem?, List.length_take, Nat.min_eq_left hlen,
      List.getElem?_take_of_lt (by omega)]

theorem exists_subscription (hf : h.Follows who r earlier passed) :
    ∃ s, h.subscription? who = some s := by
  rcases hf.subscribed with hsub | ⟨hsub, -⟩ <;> exact ⟨_, hsub⟩

theorem subscription_cases (hf : h.Follows who r earlier passed) {s : Subscription}
    (hs : h.subscription? who = some s) : s.replayed = r.asked.drop r.received.length ∧
      (s.next = some (earlier.length + passed + 1) ∨
        s.next = none ∧ h.broadcaster.isOpen = false ∧ r.published = []) := by
  rcases hf.subscribed with hsub | ⟨hsub, hclosed⟩
  · obtain rfl := Option.some.inj (hs.symm.trans hsub)
    exact ⟨rfl, Or.inl rfl⟩
  · obtain rfl := Option.some.inj (hs.symm.trans hsub)
    exact ⟨rfl, Or.inr ⟨rfl, hclosed⟩⟩

/-- The oldest live step kept for a subscriber is the first of those that are outstanding and
kept. -/
theorem nextLive?_eq (hf : h.Follows who r earlier passed) {s : Subscription}
    (hs : h.subscription? who = some s) :
    s.nextLive? h.broadcaster = (lastOf liveCapacity r.outstanding).head? := by
  rcases (hf.subscription_cases hs).2 with hnext | ⟨hnext, -, hnone⟩
  · rw [Subscription.nextLive?, hnext, Option.bind_some, ← hf.recent_filter, List.head?_filter]
  · rw [hf.outstanding_eq, hnone]
    simp [Subscription.nextLive?, hnext, lastOf]

/-- What a poll answers is what the receipt says. -/
theorem poll_delivery (hf : h.Follows who r earlier passed) {s : Subscription}
    (hs : h.subscription? who = some s) :
    (s.poll h.broadcaster).1 = r.delivery h.broadcaster.isOpen := by
  rw [Subscription.poll, Receipt.delivery, Receipt.retained, (hf.subscription_cases hs).1,
    hf.nextLive?_eq hs]
  cases r.asked.drop r.received.length with
  | cons m rest => rfl
  | nil =>
    cases hlive : lastOf liveCapacity r.outstanding with
    | cons m rest => rfl
    | nil =>
      have hwaits : (h.broadcaster.isOpen && s.next.isSome) = h.broadcaster.isOpen := by
        rcases (hf.subscription_cases hs).2 with hnext | ⟨-, hclosed, -⟩
        · simp [hnext]
        · simp [hclosed]
      simp only [List.nil_append, List.head?_nil, hwaits]

end Follows

/-- What an action does to a receipt that a hub follows: the hub after it goes on following, and the
steps that come to be behind the subscriber are those that it misses and then those that it gets. -/
def Advances (h' : SetupHub) (who : String) (a : SetupAction) (r r' : Receipt)
    (earlier : List SetupMilestone) (passed : Nat) : Prop :=
  ∃ passed' got, h'.Follows who r' earlier passed' ∧ r'.live = r.live ++ got ∧
    r'.published.take passed' = r.published.take passed ++ r.passedOver who a ++ got ∧
    (r.looksAtLive who a = false → got = [])

namespace Follows

variable {h h' : SetupHub} {who : String} {r : Receipt} {earlier : List SetupMilestone}
  {passed : Nat}

theorem unchanged (hf : h.Follows who r earlier passed) {a : SetupAction}
    (hover : r.passedOver who a = []) (hb : h'.broadcaster = h.broadcaster)
    (hs : h'.subscription? who = h.subscription? who) :
    h'.Advances who a r r earlier passed :=
  ⟨passed, [], hf.congr hb hs, by simp, by simp [hover], fun _ => rfl⟩

/-- A live step that is handed over is the one whose number comes before the place that the
subscriber is moved to. -/
theorem seq_of_take (hf : h.Follows who r earlier passed) {count : Nat} {m : SetupMilestone}
    {others : List SetupMilestone} (hle : count + 1 ≤ r.published.length)
    (htake : r.published.take (count + 1) = others ++ [m]) : m.seq = earlier.length + count + 1 := by
  have hm : r.published[count]? = some m := by
    have hlast := congrArg List.getLast? htake
    rwa [List.getLast?_concat, List.getLast?_eq_getElem?, List.length_take, Nat.min_eq_left hle,
      Nat.add_sub_cancel, List.getElem?_take_of_lt (Nat.lt_succ_self count)] at hlast
  obtain ⟨hlt, rfl⟩ := List.getElem?_eq_some_iff.mp hm
  have hdrop := hf.published_numbered.drop (k := count) (Nat.le_of_lt hlt)
  rw [List.drop_eq_getElem_cons hlt] at hdrop
  have := hdrop.1
  omega

/-- One poll of the subscriber. -/
theorem poll_advances (hf : h.Follows who r earlier passed) {s : Subscription}
    (hs : h.subscription? who = some s) :
    (h.replace who (s.poll h.broadcaster).2).Advances who (.poll who) r
      (r.add who (.poll who, .delivered (s.poll h.broadcaster).1)) earlier passed := by
  cases hreplay : r.asked.drop r.received.length with
  | cons m rest =>
    have hlt : r.received.length < r.asked.length := by
      have := congrArg List.length hreplay
      simp only [List.length_drop, List.length_cons] at this
      omega
    have hpoll : s.poll h.broadcaster = (.milestone m, { s with replayed := rest }) := by
      rw [Subscription.poll, (hf.subscription_cases hs).1, hreplay]
    have hnext := hf.take_replay 1 (h.replace who { s with replayed := rest })
      (by omega) rfl (by simp [hs, (hf.subscription_cases hs).1, hreplay])
    rw [hreplay] at hnext
    rw [hpoll, Receipt.add_poll]
    have hbefore : r.live = [] := Receipt.live_eq_nil (by omega)
    have hafter : ({ r with received := r.received ++ [m] } : Receipt).live = [] :=
      Receipt.live_eq_nil (by simp only [List.length_append, List.length_singleton]; omega)
    exact ⟨passed, [], hnext, by rw [hbefore, hafter, List.append_nil], by
      simp [Receipt.passedOver, Receipt.looksAtLive, Nat.not_le.mpr hlt], fun _ => rfl⟩
  | nil =>
    have hdrained : r.asked.length ≤ r.received.length := List.drop_eq_nil_iff.mp hreplay
    cases hlive : lastOf liveCapacity r.outstanding with
    | nil =>
      have hout : r.outstanding = [] := (lastOf_eq_nil_iff (by decide)).mp hlive
      have hpoll : ∃ d, s.poll h.broadcaster = (d, s) ∧
          handedTo who (.poll who, .delivered d) = [] := by
        rw [Subscription.poll, (hf.subscription_cases hs).1, hreplay, hf.nextLive?_eq hs, hlive]
        refine ⟨_, rfl, ?_⟩
        cases h.broadcaster.isOpen && s.next.isSome <;> rfl
      obtain ⟨d, hpoll, hnothing⟩ := hpoll
      have hadd : r.add who (.poll who, .delivered d) = r := by
        simp [Receipt.add, hnothing, published?]
      rw [hpoll, hadd]
      exact hf.unchanged (by simp [Receipt.passedOver, Receipt.overdue, hout]) rfl (by simp [hs])
    | cons m rest =>
      have hpoll : s.poll h.broadcaster = (.milestone m, ⟨[], some (m.seq + 1)⟩) := by
        rw [Subscription.poll, (hf.subscription_cases hs).1, hreplay, hf.nextLive?_eq hs, hlive]
        rfl
      have hgot : (lastOf liveCapacity r.outstanding).take 1 = [m] := by rw [hlive]; rfl
      obtain ⟨hlen, htake⟩ := hf.take_published hgot
      have hseq := hf.seq_of_take hlen htake
      have hnext := hf.take_live hdrained hgot (List.cons_ne_nil _ _)
        (h.replace who ⟨[], some (m.seq + 1)⟩) rfl (by simp [hseq, Nat.add_assoc])
      have hlooks : r.looksAtLive who (.poll who) = true := by
        simp [Receipt.looksAtLive, hdrained]
      rw [hpoll, Receipt.add_poll]
      refine ⟨_, [m], hnext, Receipt.live_append hdrained [m], ?_, by simp [hlooks]⟩
      rw [Receipt.passedOver, if_pos hlooks]
      exact htake

/-- What a drain answers is all that is kept for the subscriber. -/
theorem drain_items (hf : h.Follows who r earlier passed) {s : Subscription}
    (hs : h.subscription? who = some s) :
    (s.drain h.broadcaster).1 = r.retained ∧
      (s.drain h.broadcaster).2.1 = !h.broadcaster.isOpen := by
  rw [Subscription.drain, Receipt.retained, (hf.subscription_cases hs).1]
  rcases (hf.subscription_cases hs).2 with hnext | ⟨hnext, hclosed, hnone⟩
  · simp only [hnext, hf.recent_filter, Option.isSome_some, Bool.and_true, and_self]
  · simp [hnext, hclosed, hf.outstanding_eq, hnone, lastOf]

/-- The whole rest of the replay is handed over. -/
theorem drain_replay (hf : h.Follows who r earlier passed) {s : Subscription}
    (hs : h.subscription? who = some s) :
    let drained : Receipt := { r with received := r.received ++ r.asked.drop r.received.length }
    (h.replace who ⟨[], s.next⟩).Follows who drained earlier passed ∧ drained.live = r.live ∧
      r.asked.length ≤ drained.received.length := by
  intro drained
  have hrep := (hf.subscription_cases hs).1
  rcases Nat.le_total r.received.length r.asked.length with hle | hge
  · have hlen : drained.received.length = r.asked.length := by
      simp only [drained, List.length_append, List.length_drop]
      omega
    have hnext := hf.take_replay (r.asked.length - r.received.length)
      (h.replace who ⟨[], s.next⟩) (by omega) rfl (by simp [hs, hrep]; omega)
    rw [← List.length_drop, List.take_length] at hnext
    refine ⟨hnext, ?_, hlen.ge⟩
    rw [Receipt.live_eq_nil hle, Receipt.live_eq_nil hlen.le]
  · have hnil : r.asked.drop r.received.length = [] := List.drop_eq_nil_of_le hge
    have hsame : drained = r := by simp [drained, hnil]
    rw [hsame]
    refine ⟨hf.congr rfl ?_, rfl, hge⟩
    rw [subscription?_replace_self, hs, ← hnil, ← hrep]

/-- One drain of the subscriber. -/
theorem drain_advances (hf : h.Follows who r earlier passed) {s : Subscription}
    (hs : h.subscription? who = some s) :
    (h.replace who (s.drain h.broadcaster).2.2).Advances who (.drain who) r
      { r with received := r.received ++ r.retained } earlier passed := by
  have hlooks : r.looksAtLive who (.drain who) = true := by simp [Receipt.looksAtLive]
  obtain ⟨hf₁, hlive, hdrained⟩ := hf.drain_replay hs
  set drained : Receipt := { r with received := r.received ++ r.asked.drop r.received.length }
  have hout : drained.outstanding = r.outstanding := by rw [hf₁.outstanding_eq, hf.outstanding_eq]
  have hover : drained.overdue = r.overdue := by rw [Receipt.overdue, hout, Receipt.overdue]
  have hrec : ({ r with received := r.received ++ r.retained } : Receipt) =
      { drained with received := drained.received ++ lastOf liveCapacity drained.outstanding } := by
    simp [drained, Receipt.retained, hout, List.append_assoc]
  have hs₁ : (h.replace who ⟨[], s.next⟩).subscription? who = some ⟨[], s.next⟩ := by simp
  have hseq : h.broadcaster.nextSeq = earlier.length + r.published.length + 1 := by
    rw [hf.accepted.nextSeq_eq, List.length_append]
  rw [hrec, Advances, Receipt.passedOver, if_pos hlooks, ← hover]
  by_cases hnone : lastOf liveCapacity drained.outstanding = []
  · have hnil := (lastOf_eq_nil_iff (by decide)).mp hnone
    have hpassed : passed = r.published.length := by
      have := hf.passed_le
      have hdrop := List.drop_eq_nil_iff.mp (hf₁.outstanding_eq ▸ hnil)
      exact Nat.le_antisymm this hdrop
    rw [hnone, List.append_nil, Receipt.overdue, hnil]
    refine ⟨passed, [], hf₁.congr rfl ?_, by rw [hlive, List.append_nil], by simp [drained],
      fun _ => rfl⟩
    rw [subscription?_replace_self, hs₁, Subscription.drain]
    rcases (hf.subscription_cases hs).2 with hnext | ⟨hnext, -⟩
    · simp [hnext, hseq, hpassed]
    · simp [hnext]
  · have hgot : (lastOf liveCapacity drained.outstanding).take
        (lastOf liveCapacity drained.outstanding).length = lastOf liveCapacity drained.outstanding :=
      List.take_length
    obtain ⟨hlen, htake⟩ := hf₁.take_published hgot
    refine ⟨_, _, hf₁.take_live hdrained hgot hnone _ rfl ?_, ?_, htake, by simp [hlooks]⟩
    · have hall : passed + drained.overdue.length +
          (lastOf liveCapacity drained.outstanding).length = r.published.length := by
        have hsplit := congrArg List.length drained.overdue_append
        have hrest : drained.outstanding.length = r.published.length - passed := by
          rw [hf₁.outstanding_eq, List.length_drop]
        rw [List.length_append, hrest] at hsplit
        have := hf.passed_le
        omega
      rw [subscription?_replace_self, Subscription.drain, hall]
      rcases (hf.subscription_cases hs).2 with hnext | ⟨-, -, hempty⟩
      · have := hf.passed_le
        simp only [hnext, Option.map_some, hseq, Option.some.injEq, Subscription.mk.injEq, true_and]
        omega
      · simp [hout, hf.outstanding_eq, hempty, lastOf] at hnone
    · rw [Receipt.live_append hdrained, hlive]

/-- One step more is accepted. -/
theorem publish_follows (hf : h.Follows who r earlier passed) {b : Broadcaster}
    {m : SetupMilestone} (hopen : h.broadcaster.isOpen = true)
    (haccepted : b.Accepted (earlier ++ r.published ++ [m])) :
    SetupHub.Follows { h with broadcaster := b } who { r with published := r.published ++ [m] }
      earlier passed := by
  have htake : (r.published ++ [m]).take passed = r.published.take passed :=
    List.take_append_of_le_length hf.passed_le
  refine ⟨List.append_assoc _ _ _ ▸ haccepted, hf.asked_suffix, ?_, hf.received_eq, ?_, ?_, ?_⟩
  · rcases hf.subscribed with hsub | ⟨-, hclosed, -⟩
    · exact Or.inl hsub
    · rw [hopen] at hclosed
      cases hclosed
  · exact Nat.le_trans hf.passed_le (by simp)
  · exact htake.symm ▸ hf.live_sublist
  · rcases hf.latest with hnone | ⟨hpos, hlast⟩
    · exact Or.inl hnone
    · have hlt : passed - 1 < r.published.length := by
        have := hf.passed_le
        omega
      exact Or.inr ⟨hpos, hlast.trans (List.getElem?_append_left hlt).symm⟩

/-- What others do to their subscriptions is nothing to the subscriber. -/
theorem other_advances (hf : h.Follows who r earlier passed) {a : SetupAction}
    {answer : SetupAnswer} (hpublished : published? (a, answer) = none)
    (hhanded : handedTo who (a, answer) = []) (hlooks : r.looksAtLive who a = false)
    (hb : h'.broadcaster = h.broadcaster) (hs : h'.subscription? who = h.subscription? who) :
    h'.Advances who a r (r.add who (a, answer)) earlier passed := by
  rw [Receipt.add_eq_self hpublished hhanded]
  exact hf.unchanged (by simp [Receipt.passedOver, hlooks]) hb hs

/-- One action, whoever does it, as long as the subscriber keeps its subscription. -/
theorem step_advances (hf : h.Follows who r earlier passed) (a : SetupAction)
    (hkeeps : a.keeps who = true) :
    (h.step a).2.Advances who a r (r.add who (a, (h.step a).1)) earlier passed := by
  obtain ⟨s, hs⟩ := hf.exists_subscription
  cases a with
  | publish status details =>
    rcases h.broadcaster.publish_cases status details with
      ⟨-, herr⟩ | ⟨hopen, m, b, hok, -, -, -, -, haccepted⟩
    · simp only [step, herr]
      exact hf.other_advances rfl rfl rfl rfl rfl
    · simp only [step, hok]
      refine ⟨passed, [], ?_, ?_, ?_, fun _ => rfl⟩
      · simpa [Receipt.add, published?, handedTo] using
          hf.publish_follows hopen (haccepted _ hf.accepted)
      · simp [Receipt.add, handedTo, Receipt.live]
      · simp [Receipt.add, published?, Receipt.passedOver, Receipt.looksAtLive,
          List.take_append_of_le_length hf.passed_le]
  | subscribe w replay =>
    have hne : w ≠ who := by simpa [SetupAction.keeps] using hkeeps
    exact hf.other_advances rfl rfl rfl rfl (subscription?_replace_of_ne h hne _)
  | unsubscribe w =>
    have hne : w ≠ who := by simpa [SetupAction.keeps] using hkeeps
    exact hf.other_advances rfl rfl rfl rfl (subscription?_remove_of_ne h hne)
  | poll w =>
    by_cases hw : w = who
    · subst hw
      simpa only [step, hs] using hf.poll_advances hs
    · have hlooks : r.looksAtLive who (.poll w) = false := by simp [Receipt.looksAtLive, hw]
      simp only [step]
      cases h.subscription? w with
      | none => exact hf.other_advances rfl rfl hlooks rfl rfl
      | some o =>
        exact hf.other_advances rfl (handedTo_poll_of_ne hw _) hlooks rfl
          (subscription?_replace_of_ne h hw _)
  | drain w =>
    by_cases hw : w = who
    · subst hw
      obtain ⟨hitems, -⟩ := hf.drain_items hs
      have hnext := hf.drain_advances hs
      rw [← hitems] at hnext
      simpa only [step, hs, Receipt.add_drain] using hnext
    · have hlooks : r.looksAtLive who (.drain w) = false := by simp [Receipt.looksAtLive, hw]
      simp only [step]
      cases h.subscription? w with
      | none => exact hf.other_advances rfl (if_neg hw) hlooks rfl rfl
      | some o =>
        exact hf.other_advances rfl (if_neg hw) hlooks rfl
          (subscription?_replace_of_ne h hw _)
  | close =>
    refine ⟨passed, [], ?_, ?_, ?_, fun _ => rfl⟩
    · rw [Receipt.add_eq_self rfl rfl]
      exact ⟨Broadcaster.close_accepted hf.accepted, hf.asked_suffix,
        hf.subscribed.imp id fun hsub => ⟨hsub.1, rfl, hsub.2.2⟩, hf.received_eq, hf.passed_le,
        hf.live_sublist, hf.latest⟩
    · simp [Receipt.add_eq_self (e := (.close, .done)) rfl rfl, step]
    · simp [Receipt.add_eq_self (e := (.close, .done)) rfl rfl, step, Receipt.passedOver,
        Receipt.looksAtLive]

end Follows

end SetupHub

end FleetWatch
