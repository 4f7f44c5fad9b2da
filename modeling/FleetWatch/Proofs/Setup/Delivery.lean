import FleetWatch.Proofs.Setup.Receipt
import Mathlib.Data.List.Perm.Subperm
/-!
What a subscriber receives, whatever else happens to the broadcaster and its other subscribers.

It receives what it asked of the history and then what is published, each step once and in order.
It misses a step only by looking when more than `liveCapacity` are outstanding, and then the oldest
of these.  After the end it still receives all that is kept for it.
-/

namespace FleetWatch

namespace SetupHub

/-! ### Joining -/

theorem step_accepted (h : SetupHub) (a : SetupAction) {steps : List SetupMilestone}
    (haccepted : h.broadcaster.Accepted steps) :
    ∃ steps', (h.step a).2.broadcaster.Accepted steps' := by
  cases a with
  | publish status details =>
    rcases h.broadcaster.publish_cases status details with
      ⟨-, herr⟩ | ⟨-, m, b, hok, -, -, -, -, hnext⟩
    · exact ⟨steps, by simpa only [step, herr] using haccepted⟩
    · exact ⟨steps ++ [m], by simpa only [step, hok] using hnext steps haccepted⟩
  | subscribe _ _ => exact ⟨steps, haccepted⟩
  | unsubscribe _ => exact ⟨steps, haccepted⟩
  | close => exact ⟨steps, Broadcaster.close_accepted haccepted⟩
  | poll w =>
    refine ⟨steps, ?_⟩
    simp only [step]
    cases h.subscription? w <;> exact haccepted
  | drain w =>
    refine ⟨steps, ?_⟩
    simp only [step]
    cases h.subscription? w <;> exact haccepted

theorem after_accepted (capacity : Nat) (actions : List SetupAction) :
    ∃ steps, ((start capacity).after actions).broadcaster.Accepted steps := by
  induction actions using List.reverseRecOn with
  | nil => exact ⟨[], Broadcaster.create_accepted capacity⟩
  | append_singleton past a ih =>
      obtain ⟨steps, hsteps⟩ := ih
      rw [after_append_singleton]
      exact step_accepted _ a hsteps

/-- A new subscription follows the receipt on which nothing stands but what was asked for. -/
theorem join_follows (h : SetupHub) (who : String) (replay : Replay)
    {steps : List SetupMilestone} (haccepted : h.broadcaster.Accepted steps) :
    (h.step (.subscribe who replay)).2.Follows who
      ⟨lastOf (replay.count h.broadcaster.history.length) h.broadcaster.history, [], []⟩ steps 0 := by
  have hsub : (h.step (.subscribe who replay)).2.subscription? who =
      some (h.broadcaster.subscribe replay) := subscription?_replace_self h who _
  refine ⟨(List.append_nil steps).symm ▸ haccepted, ?_, ?_, by simp [Receipt.live], Nat.le_refl 0,
    by simp [Receipt.live], Or.inl ⟨by simp [Receipt.live], rfl⟩⟩
  · have hhistory : h.broadcaster.history <:+ steps := by
      rw [haccepted.history_eq]
      exact lastOf_suffix _ _
    exact (lastOf_suffix _ _).trans hhistory
  · rw [hsub, Broadcaster.subscribe, Replay.drop_skip]
    cases hopen : h.broadcaster.isOpen with
    | true => exact Or.inl (by simp [haccepted.nextSeq_eq])
    | false => exact Or.inr ⟨by simp, hopen, rfl⟩

/-! ### Missed steps -/

/-- A step that was overdue when the subscriber looked at the live steps. -/
def Missed (h : SetupHub) (who : String) (asked : List SetupMilestone)
    (actions : List SetupAction) (m : SetupMilestone) : Prop :=
  ∃ past a rest, actions = past ++ a :: rest ∧
    (h.receipt who asked past).looksAtLive who a = true ∧ m ∈ (h.receipt who asked past).overdue

theorem missed_append_singleton (h : SetupHub) (who : String) (asked : List SetupMilestone)
    (actions : List SetupAction) (a : SetupAction) (m : SetupMilestone) :
    h.Missed who asked (actions ++ [a]) m ↔
      h.Missed who asked actions m ∨ m ∈ (h.receipt who asked actions).passedOver who a := by
  constructor
  · rintro ⟨past, b, rest, heq, hlooks, hm⟩
    rcases List.eq_nil_or_concat rest with rfl | ⟨rest, c, rfl⟩
    · obtain ⟨rfl, hab⟩ := List.append_inj' heq rfl
      obtain rfl := List.singleton_inj.mp hab
      exact Or.inr (by rwa [Receipt.passedOver, if_pos hlooks])
    · rw [List.concat_eq_append, ← List.cons_append, ← List.append_assoc] at heq
      exact Or.inl ⟨past, b, rest, (List.append_inj' heq rfl).1, hlooks, hm⟩
  · rintro (⟨past, b, rest, rfl, hlooks, hm⟩ | hm)
    · exact ⟨past, b, rest ++ [a], by simp, hlooks, hm⟩
    · rw [Receipt.passedOver] at hm
      split at hm
      · exact ⟨actions, a, [], rfl, ‹_›, hm⟩
      · simp at hm

/-! ### Runs -/

section

variable {h : SetupHub} {who : String} {asked earlier : List SetupMilestone}

/-- Along a run the hub follows the receipt, and the steps behind the subscriber are those that it
received and those that it missed. -/
theorem run_follows (hjoin : h.Follows who ⟨asked, [], []⟩ earlier 0) (actions : List SetupAction)
    (hkeeps : ∀ a ∈ actions, a.keeps who = true) :
    ∃ passed, (h.after actions).Follows who (h.receipt who asked actions) earlier passed ∧
      (∀ m, m ∈ (h.receipt who asked actions).published.take passed ↔
        m ∈ (h.receipt who asked actions).live ∨ h.Missed who asked actions m) ∧
      ∀ m, h.Missed who asked actions m → m ∉ (h.receipt who asked actions).live := by
  induction actions using List.reverseRecOn with
  | nil =>
      refine ⟨0, hjoin, fun m => ?_, ?_⟩
      · simp [receipt, answers, Receipt.live, Missed]
      · rintro m ⟨past, a, rest, heq, -⟩
        simp at heq
  | append_singleton past a ih =>
      obtain ⟨passed, hf, hbehind, hmissed⟩ := ih fun b hb => hkeeps b (by simp [hb])
      obtain ⟨passed', got, hf', hlive, htake, -⟩ := hf.step_advances a (hkeeps a (by simp))
      rw [← receipt_append_singleton] at hf' hlive htake
      rw [← after_append_singleton] at hf'
      refine ⟨passed', hf', fun m => ?_, fun m hm => ?_⟩
      · rw [htake, hlive, missed_append_singleton, List.mem_append, List.mem_append, hbehind,
          List.mem_append]
        tauto
      · -- what is missed now is neither behind the subscriber already nor received with it
        have hnodup : (((h.receipt who asked past).published.take passed ++
            (h.receipt who asked past).passedOver who a) ++ got).Nodup := by
          rw [← htake]
          exact hf'.published_numbered.nodup.sublist (List.take_sublist _ _)
        obtain ⟨hfirst, -, hapart⟩ := List.nodup_append.mp hnodup
        obtain ⟨-, -, hapart'⟩ := List.nodup_append.mp hfirst
        rw [hlive, List.mem_append, not_or]
        rcases (missed_append_singleton ..).mp hm with hold | hnew
        · refine ⟨hmissed m hold, fun hgot => ?_⟩
          have hpast := (hbehind m).mpr (Or.inr hold)
          exact hapart m (List.mem_append_left _ hpast) m hgot rfl
        · refine ⟨fun hin => ?_, fun hgot => ?_⟩
          · exact hapart' m ((hbehind m).mpr (Or.inl hin)) m hnew rfl
          · exact hapart m (List.mem_append_right _ hnew) m hgot rfl

end

/-! ### The end -/

theorem step_of_closed (h : SetupHub) (a : SetupAction) (hclosed : h.broadcaster.isOpen = false) :
    (h.step a).2.broadcaster.isOpen = false ∧ published? (a, (h.step a).1) = none := by
  cases a with
  | publish status details =>
    rcases h.broadcaster.publish_cases status details with ⟨-, herr⟩ | ⟨hopen, -⟩
    · simp only [step, herr]
      exact ⟨hclosed, rfl⟩
    · rw [hclosed] at hopen
      cases hopen
  | subscribe _ _ => exact ⟨hclosed, rfl⟩
  | unsubscribe _ => exact ⟨hclosed, rfl⟩
  | close => exact ⟨rfl, rfl⟩
  | poll w =>
    simp only [step]
    cases h.subscription? w <;> exact ⟨hclosed, rfl⟩
  | drain w =>
    simp only [step]
    cases h.subscription? w <;> exact ⟨hclosed, rfl⟩

theorem receipt_published_of_closed (h : SetupHub) (who : String) (asked : List SetupMilestone)
    (actions more : List SetupAction) (hclosed : (h.after actions).broadcaster.isOpen = false) :
    (h.after (actions ++ more)).broadcaster.isOpen = false ∧
      (h.receipt who asked (actions ++ more)).published =
        (h.receipt who asked actions).published := by
  induction more using List.reverseRecOn with
  | nil => simpa using hclosed
  | append_singleton past a ih =>
      obtain ⟨hstays, hnone⟩ := step_of_closed _ a ih.1
      rw [← List.append_assoc, after_append_singleton, receipt_append_singleton]
      exact ⟨hstays, by rw [Receipt.add, hnone, Option.toList_none, List.append_nil, ih.2]⟩

section

variable {h h' : SetupHub} {who : String} {r r' : Receipt} {earlier : List SetupMilestone}
  {passed : Nat}

theorem Follows.received_append_retained (hf : h.Follows who r earlier passed) :
    r.received ++ r.retained = r.asked ++ (r.live ++ lastOf liveCapacity r.outstanding) := by
  rw [Receipt.retained]
  rcases Nat.le_total r.received.length r.asked.length with hle | hge
  · have hreceived : r.received = r.asked.take r.received.length := by
      simpa [Receipt.live_eq_nil hle] using hf.received_eq
    rw [Receipt.live_eq_nil hle, List.nil_append, ← List.append_assoc]
    congr 1
    conv_lhs => rw [hreceived, List.length_take, Nat.min_eq_left hle, List.take_append_drop]
  · have hreceived := hf.received_eq
    rw [List.take_of_length_le hge] at hreceived
    rw [List.drop_eq_nil_of_le hge, List.nil_append, ← List.append_assoc, ← hreceived]

/-- An action that publishes nothing moves steps from what is kept to what is received. -/
theorem Advances.live_append (hf : h.Follows who r earlier passed) {a : SetupAction}
    (hadv : h'.Advances who a r r' earlier passed) (hpublished : r'.published = r.published) :
    r'.live ++ lastOf liveCapacity r'.outstanding =
      r.live ++ lastOf liveCapacity r.outstanding := by
  obtain ⟨passed', got, hf', hlive, htake, hidle⟩ := hadv
  have hsplit : r.outstanding = r.passedOver who a ++ got ++ r'.outstanding := by
    have hwhole : r.published.take passed ++ r.outstanding =
        r.published.take passed ++ (r.passedOver who a ++ got ++ r'.outstanding) := by
      rw [hf.outstanding_eq, List.take_append_drop, hf'.outstanding_eq, ← List.append_assoc,
        ← List.append_assoc, ← htake, List.take_append_drop, hpublished]
    exact List.append_cancel_left hwhole
  cases hlooks : r.looksAtLive who a with
  | false =>
    have hgot := hidle hlooks
    rw [Receipt.passedOver, hlooks, hgot] at hsplit
    rw [hlive, hgot, List.append_nil, hsplit]
    rfl
  | true =>
    rw [Receipt.passedOver, if_pos hlooks, List.append_assoc] at hsplit
    have hkept : lastOf liveCapacity r.outstanding = got ++ r'.outstanding :=
      List.append_cancel_left (r.overdue_append.trans hsplit)
    have hlen : r'.outstanding.length ≤ liveCapacity := by
      have := congrArg List.length hkept
      rw [lastOf_length, List.length_append] at this
      omega
    rw [hkept, hlive, lastOf_eq_self hlen, List.append_assoc]

end

section

variable {h : SetupHub} {who : String} {asked earlier : List SetupMilestone}

/-- After the end nothing is lost: what is kept for the subscriber is what it receives from then
on. -/
theorem received_append_retained_of_closed (hjoin : h.Follows who ⟨asked, [], []⟩ earlier 0)
    {actions more : List SetupAction} (hkeeps : ∀ a ∈ actions ++ more, a.keeps who = true)
    (hclosed : (h.after actions).broadcaster.isOpen = false) :
    (h.receipt who asked (actions ++ more)).received ++
        (h.receipt who asked (actions ++ more)).retained =
      (h.receipt who asked actions).received ++ (h.receipt who asked actions).retained := by
  induction more using List.reverseRecOn with
  | nil => rw [List.append_nil]
  | append_singleton past a ih =>
      rw [← List.append_assoc] at hkeeps ⊢
      have hpast : ∀ b ∈ actions ++ past, b.keeps who = true :=
        fun b hb => hkeeps b (List.mem_append_left _ hb)
      obtain ⟨passed, hf, -⟩ := run_follows hjoin (actions ++ past) hpast
      have hadv := hf.step_advances a (hkeeps a (by simp))
      obtain ⟨hstays, -⟩ := receipt_published_of_closed h who asked actions past hclosed
      obtain ⟨-, hnone⟩ := step_of_closed _ a hstays
      rw [← receipt_append_singleton] at hadv
      have hkept := hadv.live_append hf (by
        rw [receipt_append_singleton, Receipt.add, hnone, Option.toList_none, List.append_nil])
      obtain ⟨passed', got, hf', -⟩ := hadv
      rw [hf'.received_append_retained, hkept, ← ih hpast, hf.received_append_retained]
      rfl

theorem poll_answer (hjoin : h.Follows who ⟨asked, [], []⟩ earlier 0) {actions : List SetupAction}
    (hkeeps : ∀ a ∈ actions, a.keeps who = true) :
    ((h.after actions).step (.poll who)).1 = .delivered
      ((h.receipt who asked actions).delivery (h.after actions).broadcaster.isOpen) := by
  obtain ⟨passed, hf, -⟩ := run_follows hjoin actions hkeeps
  obtain ⟨s, hs⟩ := hf.exists_subscription
  simp only [step, hs, hf.poll_delivery hs]

theorem keeps_append_polls {actions : List SetupAction}
    (hkeeps : ∀ a ∈ actions, a.keeps who = true) (count : Nat) :
    ∀ a ∈ actions ++ List.replicate count (.poll who), a.keeps who = true := by
  intro a ha
  rcases List.mem_append.mp ha with hold | hpoll
  · exact hkeeps a hold
  · rw [List.eq_of_mem_replicate hpoll]
    rfl

/-- After the end a number of polls receives as many of the steps that are kept. -/
theorem received_polls_of_closed (hjoin : h.Follows who ⟨asked, [], []⟩ earlier 0)
    {actions : List SetupAction} (hkeeps : ∀ a ∈ actions, a.keeps who = true)
    (hclosed : (h.after actions).broadcaster.isOpen = false) (count : Nat) :
    (h.receipt who asked (actions ++ List.replicate count (.poll who))).received =
      (h.receipt who asked actions).received ++
        (h.receipt who asked actions).retained.take count := by
  induction count with
  | zero => simp
  | succ count ih =>
      have hpolls := keeps_append_polls hkeeps count
      have hwhole := received_append_retained_of_closed hjoin hpolls hclosed
      rw [ih, List.append_assoc] at hwhole
      have hrest : (h.receipt who asked (actions ++ List.replicate count (.poll who))).retained =
          (h.receipt who asked actions).retained.drop count := by
        refine List.append_cancel_left ((List.append_cancel_left hwhole).trans ?_)
        exact (List.take_append_drop count (h.receipt who asked actions).retained).symm
      rw [List.replicate_succ', ← List.append_assoc, receipt_append_singleton, Receipt.add, ih,
        poll_answer hjoin hpolls, Receipt.delivery, hrest, List.take_add_one, List.append_assoc,
        (receipt_published_of_closed h who asked actions _ hclosed).1]
      rw [← List.head?_drop]
      cases (h.receipt who asked actions).retained.drop count <;> simp [handedTo]

end

/-! ### The subscriber's view of a run -/

/-- What a subscriber of a hub that asked for a part of the history sees of a run. -/
structure ExactDelivery (h : SetupHub) (who : String) (asked : List SetupMilestone)
    (actions : List SetupAction) : Prop where
  /-- The numbers increase, so nothing comes twice. -/
  increasing : ((h.receipt who asked actions).received.map SetupMilestone.seq).Pairwise (· < ·)
  /-- Nothing comes but the replay and what is published later, in this order. -/
  ordered : (h.receipt who asked actions).received.Sublist
    (asked ++ (h.receipt who asked actions).published)
  /-- The replay comes first and as a whole. -/
  replay_first : (h.receipt who asked actions).received <+: asked ∨
    asked <+: (h.receipt who asked actions).received
  /-- A step that is published is received, outstanding, or it was overdue at a look at the live
  steps. -/
  missed_iff : ∀ m, h.Missed who asked actions m ↔
    m ∈ (h.receipt who asked actions).published ∧ m ∉ (h.receipt who asked actions).received ∧
      m ∉ (h.receipt who asked actions).outstanding
  /-- No step of the replay is missed. -/
  replay_kept : ∀ m ∈ asked, ¬ h.Missed who asked actions m
  /-- There is no gap if never more than `liveCapacity` steps were outstanding at such a look. -/
  gapless : (∀ past a rest, actions = past ++ a :: rest →
      (h.receipt who asked past).looksAtLive who a = true →
      (h.receipt who asked past).outstanding.length ≤ liveCapacity) →
    (h.receipt who asked actions).live ++ (h.receipt who asked actions).outstanding =
      (h.receipt who asked actions).published
  /-- A poll gives the first of what is kept for the subscriber. -/
  poll : ((h.after actions).step (.poll who)).1 = .delivered
    ((h.receipt who asked actions).delivery (h.after actions).broadcaster.isOpen)
  /-- A drain gives all of it. -/
  drain : ((h.after actions).step (.drain who)).1 = .drained
    (h.receipt who asked actions).retained (!(h.after actions).broadcaster.isOpen)
  /-- After the end all that is kept is received by as many polls, and then the stream ends. -/
  closed_ends : (h.after actions).broadcaster.isOpen = false →
    let polled := actions ++
      List.replicate (h.receipt who asked actions).retained.length (.poll who)
    (h.receipt who asked polled).received =
        (h.receipt who asked actions).received ++ (h.receipt who asked actions).retained ∧
      ((h.after polled).step (.poll who)).1 = .delivered .ended
  /-- After the end nothing that is kept is lost, whatever else happens. -/
  closed_keeps : (h.after actions).broadcaster.isOpen = false → ∀ more,
    (∀ a ∈ more, a.keeps who = true) →
    (h.receipt who asked (actions ++ more)).received ++
        (h.receipt who asked (actions ++ more)).retained =
      (h.receipt who asked actions).received ++ (h.receipt who asked actions).retained
  /-- A subscription that is made after the end has the replay only. -/
  joined_closed : h.broadcaster.isOpen = false →
    (h.receipt who asked actions).published = [] ∧
      (h.receipt who asked actions).received ++ (h.receipt who asked actions).retained = asked

variable {h : SetupHub} {who : String} {asked earlier : List SetupMilestone}

theorem Follows.received_sublist {r : Receipt} {passed : Nat}
    (hf : h.Follows who r earlier passed) : r.received.Sublist (r.asked ++ r.published) := by
  rw [hf.received_eq]
  exact (List.take_sublist _ _).append (hf.live_sublist.trans (List.take_sublist _ _))

theorem Follows.asked_append_published_increasing {r : Receipt} {passed : Nat}
    (hf : h.Follows who r earlier passed) :
    (r.asked ++ r.published).Pairwise fun a b => a.seq < b.seq :=
  hf.accepted.numbered.increasing.sublist (hf.asked_suffix.sublist.append (List.Sublist.refl _))

theorem Follows.replay_prefix {r : Receipt} {passed : Nat}
    (hf : h.Follows who r earlier passed) : r.received <+: r.asked ∨ r.asked <+: r.received := by
  rcases Nat.le_total r.received.length r.asked.length with hle | hge
  · left
    rw [hf.received_eq, Receipt.live_eq_nil hle, List.append_nil]
    exact List.take_prefix _ _
  · right
    rw [hf.received_eq, List.take_of_length_le hge]
    exact List.prefix_append _ _

/-- If all that is behind the subscriber was received, then it was received without a gap. -/
theorem Follows.live_append_outstanding {r : Receipt} {passed : Nat}
    (hf : h.Follows who r earlier passed) (hall : r.published.take passed ⊆ r.live) :
    r.live ++ r.outstanding = r.published := by
  have hnodup := hf.published_numbered.nodup.sublist (List.take_sublist passed r.published)
  have hlive : r.live = r.published.take passed :=
    hf.live_sublist.eq_of_length_le (hnodup.subperm hall).length_le
  rw [hlive, hf.outstanding_eq, List.take_append_drop]

/-- The steps that were missed are those that were published and are neither received nor
outstanding. -/
theorem missed_iff_of_follows {actions : List SetupAction} {passed : Nat}
    (hf : (h.after actions).Follows who (h.receipt who asked actions) earlier passed)
    (hbehind : ∀ m, m ∈ (h.receipt who asked actions).published.take passed ↔
      m ∈ (h.receipt who asked actions).live ∨ h.Missed who asked actions m)
    (hmissed : ∀ m, h.Missed who asked actions m → m ∉ (h.receipt who asked actions).live)
    (m : SetupMilestone) : h.Missed who asked actions m ↔
      m ∈ (h.receipt who asked actions).published ∧ m ∉ (h.receipt who asked actions).received ∧
        m ∉ (h.receipt who asked actions).outstanding := by
  set r := h.receipt who asked actions
  have hnodup := hf.asked_append_published_increasing.imp (S := (· ≠ ·))
    fun hlt heq => Nat.lt_irrefl _ (heq ▸ hlt)
  obtain ⟨-, hpublished, hapart⟩ := List.nodup_append.mp hnodup
  have hcut := hpublished
  rw [← List.take_append_drop passed r.published] at hcut
  obtain ⟨-, -, hcut⟩ := List.nodup_append.mp hcut
  rw [hf.outstanding_eq, hf.received_eq]
  constructor
  · intro hm
    have htake := (hbehind m).mpr (Or.inr hm)
    have hmem := List.mem_of_mem_take htake
    refine ⟨hmem, fun hin => ?_, fun hin => hcut m htake m hin rfl⟩
    rcases List.mem_append.mp hin with hasked | hlive
    · exact hapart m (List.mem_of_mem_take hasked) m hmem rfl
    · exact hmissed m hm hlive
  · rintro ⟨hmem, hreceived, hout⟩
    rw [← List.take_append_drop passed r.published] at hmem
    have htake := (List.mem_append.mp hmem).resolve_right hout
    exact ((hbehind m).mp htake).resolve_left
      fun hlive => hreceived (List.mem_append_right _ hlive)

/-- **Delivery.**  Whatever was done to the broadcaster before, and whatever is done to it and its
other subscribers afterwards, a subscriber receives the newest steps of the history that it asked
for and then those that are published. -/
theorem subscriber_receives_exactly (capacity : Nat) (before : List SetupAction) (who : String)
    (replay : Replay) (actions : List SetupAction) (hkeeps : ∀ a ∈ actions, a.keeps who = true) :
    let hub := (start capacity).after before
    ExactDelivery (hub.step (.subscribe who replay)).2 who
      (lastOf (replay.count hub.broadcaster.history.length) hub.broadcaster.history) actions := by
  intro hub
  obtain ⟨earlier, haccepted⟩ := after_accepted capacity before
  have hjoin := join_follows hub who replay haccepted
  set h := (hub.step (.subscribe who replay)).2
  set asked := lastOf (replay.count hub.broadcaster.history.length) hub.broadcaster.history
  obtain ⟨passed, hf, hbehind, hmissed⟩ := run_follows hjoin actions hkeeps
  obtain ⟨s, hs⟩ := hf.exists_subscription
  have hiff := missed_iff_of_follows hf hbehind hmissed
  have hincreasing := hf.asked_append_published_increasing
  refine ⟨?_, hf.received_sublist, hf.replay_prefix, hiff, ?_, ?_, poll_answer hjoin hkeeps, ?_,
    ?_, ?_, ?_⟩
  · exact List.pairwise_map.mpr (hincreasing.sublist hf.received_sublist)
  · intro m hasked hm
    obtain ⟨-, -, hapart⟩ := List.pairwise_append.mp hincreasing
    exact Nat.lt_irrefl _ (hapart m hasked m ((hiff m).mp hm).1)
  · intro hfew
    refine hf.live_append_outstanding fun m hm => ((hbehind m).mp hm).resolve_right ?_
    rintro ⟨past, a, rest, heq, hlooks, hover⟩
    rw [Receipt.overdue, Nat.sub_eq_zero_of_le (hfew past a rest heq hlooks)] at hover
    simp at hover
  · obtain ⟨hitems, hended⟩ := hf.drain_items hs
    simp only [step, hs, hitems, hended]
  · intro hclosed polled
    have hreceived := received_polls_of_closed hjoin hkeeps hclosed
      (h.receipt who asked actions).retained.length
    rw [List.take_length] at hreceived
    have hpolls : ∀ a ∈ polled, a.keeps who = true := keeps_append_polls hkeeps _
    have hwhole := received_append_retained_of_closed hjoin hpolls hclosed
    have hnil : (h.receipt who asked polled).retained = [] := by
      rw [hreceived] at hwhole
      exact List.append_right_eq_self.mp hwhole
    refine ⟨hreceived, ?_⟩
    rw [poll_answer hjoin hpolls, Receipt.delivery, hnil,
      (receipt_published_of_closed h who asked actions _ hclosed).1]
    rfl
  · intro hclosed more hmore
    refine received_append_retained_of_closed hjoin (fun a ha => ?_) hclosed
    exact (List.mem_append.mp ha).elim (hkeeps a) (hmore a)
  · intro hclosed
    obtain ⟨-, hpublished⟩ := receipt_published_of_closed h who asked [] actions hclosed
    have hjoined : (h.after []).broadcaster.isOpen = false := hclosed
    have hwhole := received_append_retained_of_closed hjoin hkeeps hjoined
    refine ⟨hpublished, hwhole.trans ?_⟩
    simp [receipt, answers, Receipt.retained, Receipt.outstanding, Receipt.live, lastOf]

/-- A subscriber that takes the replay of a full history, falls behind while others come and go, and
is still there at the end. -/
theorem lagging_subscriber_receives_exactly :
    let before := [.publish "Setup wallets" none, .publish "Create wallets" none,
      .publish "Unlock wallets" none, .subscribe "other" .all]
    let actions := [.poll "a", .unsubscribe "other"] ++
      List.replicate 300 (.publish "Syncing light clients" none) ++
      [.poll "a", .poll "a", .close, .subscribe "late" (.last 1), .drain "a"]
    (∀ a ∈ actions, a.keeps "a" = true) ∧
      ExactDelivery (((start 2).after before).step (.subscribe "a" (.last 5))).2 "a"
        (lastOf (Replay.count (.last 5) ((start 2).after before).broadcaster.history.length)
          ((start 2).after before).broadcaster.history) actions :=
  ⟨by decide +kernel, subscriber_receives_exactly 2 _ "a" (.last 5) _ (by decide +kernel)⟩

/-- The replay of two steps comes before the step that was published after joining. -/
example :
    let h := (start 2).after [.publish "a" none, .publish "b" none, .publish "c" none,
      .subscribe "s" .all]
    ((h.receipt "s" [] [.publish "d" none, .poll "s", .poll "s", .poll "s"]).received.map
      SetupMilestone.seq) = [2, 3, 4] := by
  decide

end SetupHub

end FleetWatch
