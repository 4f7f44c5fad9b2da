import FleetWatch.Proofs.Json.Members
import FleetWatch.Proofs.Service.CompositeStatus
import FleetWatch.Service.Probe
/-!
The status of xud.

The command line tool of xud prints a document that tells the statuses of its parts: of the lnd
clients by currency, in an object or in a list of pairs, and of connext.  `XudPart.Tells` says what
a document tells of a part, and a part of which it tells nothing counts as not ready.  Main
statement: the status of xud is the one that its parts make, and nothing else in the document makes
a difference (`xud_showsParts`).
-/

namespace FleetWatch

/-! ### What a document tells of the parts -/

/-- A currency with what is told of its client, if an item is a pair of these; what stands behind
them in the item is passed over. -/
def entryOfPair? : Json → Option (String × Json)
  | .array (.string currency :: info :: _) => some (currency, info)
  | _ => none

/-- The entries of the lnd clients: the members of an object, or, where there is no such object, the
pairs in a list. -/
inductive LndEntries (j : Json) : List (String × Json) → Prop
  | object {entries : List (String × Json)} (h : j.Has "lnd" (.object entries)) :
      LndEntries j entries
  | pairs {items : List Json} (hnone : ∀ entries, ¬ j.Has "lnd" (.object entries))
      (h : j.Has "lndMap" (.array items)) : LndEntries j (items.filterMap entryOfPair?)

/-- The parts that make up the status of xud. -/
inductive XudPart where
  | lndbtc
  | lndltc
  | connext
deriving Repr, DecidableEq, Inhabited

namespace XudPart

def name : XudPart → String
  | .lndbtc => "lndbtc"
  | .lndltc => "lndltc"
  | .connext => "connext"

def all : List XudPart :=
  [.lndbtc, .lndltc, .connext]

/-- What stands in a document for a part. -/
def IsEntry (j : Json) : XudPart → Json → Prop
  | .lndbtc, entry => ∃ entries, LndEntries j entries ∧ Json.LastMember entries "BTC" entry
  | .lndltc, entry => ∃ entries, LndEntries j entries ∧ Json.LastMember entries "LTC" entry
  | .connext, entry => j.Has "connext" entry

/-- A document tells the status of a part. -/
def Tells (j : Json) (part : XudPart) (status : String) : Prop :=
  ∃ entry, part.IsEntry j entry ∧ entry.Has "status" (.string status)

end XudPart

/-! ### What is read of a document -/

/-- The entries of the lnd clients that are read. -/
def lndEntries (j : Json) : List (String × Json) :=
  match j.get? "lnd", j.get? "lndMap" with
  | some (.object members), _ => members
  | _, some (.array items) => items.filterMap entryOfPair?
  | _, _ => []

theorem pairStatus?_eq (item : Json) :
    Xucli.pairStatus? item = (entryOfPair? item).map fun e => (e.1, Xucli.statusOf e.2) := by
  unfold Xucli.pairStatus? entryOfPair?
  split <;> simp_all

theorem lndStatuses_eq (j : Json) :
    Xucli.lndStatuses j =
      Json.sortMembers ((lndEntries j).map fun e => (e.1, Xucli.statusOf e.2)) := by
  unfold Xucli.lndStatuses lndEntries
  split
  · simp_all
  · simp_all [List.map_filterMap, pairStatus?_eq]
  · simp_all
    rfl

theorem lndEntries_of_object {j : Json} {entries : List (String × Json)}
    (h : j.get? "lnd" = some (.object entries)) : lndEntries j = entries := by
  simp only [lndEntries, h]

theorem lndEntries_of_pairs {j : Json} {items : List Json}
    (hnone : ∀ entries, j.get? "lnd" ≠ some (.object entries))
    (h : j.get? "lndMap" = some (.array items)) :
    lndEntries j = items.filterMap entryOfPair? := by
  unfold lndEntries
  split
  · next members hlnd => exact absurd hlnd (hnone members)
  · next hmap _ => rw [Json.array.inj (Option.some.inj (hmap.symm.trans h))]
  · next hno => exact absurd h (hno items)

theorem lndEntries_cases (j : Json) : lndEntries j = [] ∨ LndEntries j (lndEntries j) := by
  unfold lndEntries
  split
  · next hlnd => exact Or.inr (.object (Json.get?_eq_some_iff.mp hlnd))
  · next hmap hno =>
    refine Or.inr (.pairs (fun entries hlnd => ?_) (Json.get?_eq_some_iff.mp hmap))
    exact hno entries (Json.get?_eq_some_iff.mpr hlnd)
  · exact Or.inl rfl

theorem lndEntries_eq {j : Json} {entries : List (String × Json)} (h : LndEntries j entries) :
    lndEntries j = entries := by
  cases h with
  | object h => exact lndEntries_of_object (Json.get?_eq_some_iff.mpr h)
  | pairs hnone h =>
    refine lndEntries_of_pairs (fun entries hlnd => ?_) (Json.get?_eq_some_iff.mpr h)
    exact hnone entries (Json.get?_eq_some_iff.mp hlnd)

theorem lookup?_lndEntries_eq_some_iff {j entry : Json} {currency : String} :
    Json.lookup? (lndEntries j) currency = some entry ↔
      ∃ entries, LndEntries j entries ∧ Json.LastMember entries currency entry := by
  constructor
  · intro h
    rcases lndEntries_cases j with hnil | hentries
    · rw [hnil] at h
      cases h
    · exact ⟨_, hentries, Json.lookup?_eq_some_iff.mp h⟩
  · rintro ⟨entries, hentries, hlast⟩
    rw [lndEntries_eq hentries]
    exact Json.lookup?_eq_some_iff.mpr hlast

theorem lndStatus_ofJson (j : Json) (currency : String) :
    (Xucli.ofJson j).lndStatus currency =
      (Json.lookup? (lndEntries j) currency).map Xucli.statusOf := by
  rw [Xucli.Info.lndStatus, Xucli.ofJson, lndStatuses_eq, Json.find?_sortMembers,
    ← List.map_reverse, List.find?_map, Option.map_map, Json.lookup?, Option.map_map]
  rfl

theorem statusOf_eq_iff {entry : Json} {status : String} (h : status ≠ "") :
    Xucli.statusOf entry = status ↔ entry.Has "status" (.string status) := by
  rw [← Json.get?_eq_some_iff, Xucli.statusOf]
  cases hget : entry.get? "status" with
  | none => simp [Ne.symm h]
  | some value =>
    cases value with
    | string text => simp [Json.string?]
    | _ => simp [Json.string?, Ne.symm h]

namespace XudPart

/-- What is read for a part. -/
def found? (j : Json) : XudPart → Option Json
  | .lndbtc => Json.lookup? (lndEntries j) "BTC"
  | .lndltc => Json.lookup? (lndEntries j) "LTC"
  | .connext => j.get? "connext"

/-- The status that is read for a part; empty if there is none. -/
def status (j : Json) (part : XudPart) : String :=
  ((part.found? j).map Xucli.statusOf).getD ""

variable {j entry : Json} {part : XudPart} {s : String}

theorem found?_eq_some_iff : part.found? j = some entry ↔ part.IsEntry j entry := by
  cases part with
  | lndbtc => exact lookup?_lndEntries_eq_some_iff
  | lndltc => exact lookup?_lndEntries_eq_some_iff
  | connext => exact Json.get?_eq_some_iff

/-- The status read for a part is the one that the document tells. -/
theorem status_eq_iff_tells (h : s ≠ "") : part.status j = s ↔ part.Tells j s := by
  constructor
  · intro hstatus
    cases hentry : part.found? j with
    | none =>
      rw [status, hentry] at hstatus
      exact absurd hstatus.symm h
    | some entry =>
      rw [status, hentry] at hstatus
      exact ⟨entry, found?_eq_some_iff.mp hentry, (statusOf_eq_iff h).mp hstatus⟩
  · rintro ⟨entry, hentry, hs⟩
    rw [status, found?_eq_some_iff.mpr hentry]
    exact (statusOf_eq_iff h).mpr hs

theorem ready_iff_tells :
    part.status j = StatusReport.readyText ↔ part.Tells j StatusReport.readyText :=
  status_eq_iff_tells (by decide)

theorem marked_iff_tells :
    noChannelsMark.toList <:+: (part.status j).toList ↔
      ∃ s, part.Tells j s ∧ noChannelsMark.toList <:+: s.toList := by
  have hne : ∀ {s : String}, noChannelsMark.toList <:+: s.toList → s ≠ "" := by
    rintro s hmark rfl
    exact absurd (List.infix_nil.mp hmark) (by decide)
  constructor
  · intro hmark
    exact ⟨_, (status_eq_iff_tells (hne hmark)).mp rfl, hmark⟩
  · rintro ⟨s, hs, hmark⟩
    rwa [(status_eq_iff_tells (hne hmark)).mpr hs]

theorem mem_all (part : XudPart) : part ∈ all := by
  cases part <;> decide

end XudPart

theorem xudParts_ofJson (j : Json) :
    Probe.xudParts (Xucli.ofJson j) = XudPart.all.map fun part => (part.name, part.status j) := by
  rw [Probe.xudParts, lndStatus_ofJson, lndStatus_ofJson]
  rfl

/-! ### What makes no difference -/

/-- One member more, of a name that nobody asks for. -/
def AddsMember (asked : List String) (xs ys : List (String × Json)) : Prop :=
  ∃ before after name value, name ∉ asked ∧ xs = before ++ after ∧
    ys = before ++ (name, value) :: after

/-- An entry has a field more beside its status. -/
inductive EntryGrows : Json → Json → Prop
  | field {xs ys : List (String × Json)} (h : AddsMember ["status"] xs ys) :
      EntryGrows (.object xs) (.object ys)

/-- There is one more entry, of another currency, or one entry has a field more. -/
inductive EntriesGrow : List (String × Json) → List (String × Json) → Prop
  | currency {xs ys : List (String × Json)} (h : AddsMember ["BTC", "LTC"] xs ys) :
      EntriesGrow xs ys
  | entry (before : List (String × Json)) (currency : String) {v w : Json} (h : EntryGrows v w)
      (after : List (String × Json)) :
      EntriesGrow (before ++ (currency, v) :: after) (before ++ (currency, w) :: after)

/-- There is one more item, which is no pair or one of another currency, or the entry of a pair has
a field more, or other items stand behind the two of a pair. -/
inductive PairsGrow : List Json → List Json → Prop
  | item (before : List Json) {item : Json}
      (h : ∀ e, entryOfPair? item = some e → e.1 ∉ ["BTC", "LTC"]) (after : List Json) :
      PairsGrow (before ++ after) (before ++ item :: after)
  | entry (before : List Json) (currency : String) {v w : Json} (h : EntryGrows v w)
      (behind after : List Json) :
      PairsGrow (before ++ .array (.string currency :: v :: behind) :: after)
        (before ++ .array (.string currency :: w :: behind) :: after)
  | behind (before : List Json) (currency : String) (v : Json) (xs ys after : List Json) :
      PairsGrow (before ++ .array (.string currency :: v :: xs) :: after)
        (before ++ .array (.string currency :: v :: ys) :: after)

/-- A document has something more that tells nothing of the parts. -/
inductive DocumentGrows : Json → Json → Prop
  | field {xs ys : List (String × Json)} (h : AddsMember ["lnd", "lndMap", "connext"] xs ys) :
      DocumentGrows (.object xs) (.object ys)
  | lnd (before : List (String × Json)) {xs ys : List (String × Json)} (h : EntriesGrow xs ys)
      (after : List (String × Json)) :
      DocumentGrows (.object (before ++ ("lnd", .object xs) :: after))
        (.object (before ++ ("lnd", .object ys) :: after))
  | pairs (before : List (String × Json)) {xs ys : List Json} (h : PairsGrow xs ys)
      (after : List (String × Json)) :
      DocumentGrows (.object (before ++ ("lndMap", .array xs) :: after))
        (.object (before ++ ("lndMap", .array ys) :: after))
  | connext (before : List (String × Json)) {v w : Json} (h : EntryGrows v w)
      (after : List (String × Json)) :
      DocumentGrows (.object (before ++ ("connext", v) :: after))
        (.object (before ++ ("connext", w) :: after))
  /-- Beside an object of the lnd clients a list is passed over. -/
  | spare (before : List (String × Json)) (value : Json) (after : List (String × Json))
      {entries : List (String × Json)}
      (h : Json.LastMember (before ++ after) "lnd" (.object entries)) :
      DocumentGrows (.object (before ++ after)) (.object (before ++ ("lndMap", value) :: after))

/-- An entry as a pair in a list. -/
def pairOf (entry : String × Json) : Json :=
  .array [.string entry.1, entry.2]

/-- Two documents tell the same of the parts: the statuses of the lnd clients stand in either form,
and there may be more in the documents that tells nothing of the parts. -/
inductive TellsSame : Json → Json → Prop
  | grows {j k : Json} (h : DocumentGrows j k) : TellsSame j k
  | form (before entries after : List (String × Json))
      (h : ∀ member ∈ before ++ after, member.1 ≠ "lnd" ∧ member.1 ≠ "lndMap") :
      TellsSame (.object (before ++ ("lnd", .object entries) :: after))
        (.object (before ++ ("lndMap", .array (entries.map pairOf)) :: after))
  | symm {j k : Json} (h : TellsSame j k) : TellsSame k j
  | trans {i j k : Json} (hij : TellsSame i j) (hjk : TellsSame j k) : TellsSame i k

theorem AddsMember.lookup? {asked : List String} {xs ys : List (String × Json)} {name : String}
    (h : AddsMember asked xs ys) (hname : name ∈ asked) :
    Json.lookup? ys name = Json.lookup? xs name := by
  obtain ⟨before, after, other, value, hother, rfl, rfl⟩ := h
  exact Json.lookup?_insert_of_ne (ne_of_mem_of_not_mem hname hother).symm before value after

theorem EntryGrows.statusOf {v w : Json} (h : EntryGrows v w) :
    Xucli.statusOf w = Xucli.statusOf v := by
  obtain ⟨hadds⟩ := h
  rw [Xucli.statusOf, Xucli.statusOf, Json.get?, Json.get?, hadds.lookup? List.mem_cons_self]

/-- The status of the last entry of a currency. -/
def statusIn (entries : List (String × Json)) (currency : String) : Option String :=
  (Json.lookup? entries currency).map Xucli.statusOf

variable {currency : String}

theorem EntriesGrow.statusIn {xs ys : List (String × Json)} (h : EntriesGrow xs ys)
    (hasked : currency ∈ ["BTC", "LTC"]) : statusIn ys currency = statusIn xs currency := by
  cases h with
  | currency hadds => rw [FleetWatch.statusIn, hadds.lookup? hasked, FleetWatch.statusIn]
  | entry before other hentry after =>
    by_cases hsame : other = currency
    · subst hsame
      rw [FleetWatch.statusIn, FleetWatch.statusIn, Json.lookup?_insert_self,
        Json.lookup?_insert_self, Option.map_or, Option.map_or, Option.map_some, Option.map_some,
        hentry.statusOf]
    · rw [FleetWatch.statusIn, FleetWatch.statusIn, Json.lookup?_insert_of_ne hsame,
        Json.lookup?_insert_of_ne hsame]

theorem PairsGrow.statusIn {xs ys : List Json} (h : PairsGrow xs ys)
    (hasked : currency ∈ ["BTC", "LTC"]) :
    statusIn (ys.filterMap entryOfPair?) currency = statusIn (xs.filterMap entryOfPair?) currency := by
  cases h with
  | item before hitem after =>
    rename_i item
    rw [List.filterMap_append, List.filterMap_append, List.filterMap_cons]
    cases hpair : entryOfPair? item with
    | none => rfl
    | some e =>
      refine EntriesGrow.statusIn (.currency ?_) hasked
      exact ⟨_, _, e.1, e.2, hitem e hpair, rfl, rfl⟩
  | entry before other hentry behind after =>
    rw [List.filterMap_append, List.filterMap_append, List.filterMap_cons, List.filterMap_cons]
    exact EntriesGrow.statusIn (.entry _ other hentry _) hasked
  | behind before other v xs ys after =>
    rw [List.filterMap_append, List.filterMap_append, List.filterMap_cons, List.filterMap_cons]
    rfl

/-! ### Documents that differ in this only -/

variable {j k : Json}

theorem lndEntries_congr (hlnd : k.get? "lnd" = j.get? "lnd")
    (hmap : k.get? "lndMap" = j.get? "lndMap") : lndEntries k = lndEntries j := by
  rw [lndEntries, lndEntries, hlnd, hmap]

theorem XudPart.status_congr
    (hlnd : ∀ currency ∈ ["BTC", "LTC"],
      statusIn (lndEntries k) currency = statusIn (lndEntries j) currency)
    (hconnext : (k.get? "connext").map Xucli.statusOf = (j.get? "connext").map Xucli.statusOf)
    (part : XudPart) : part.status k = part.status j := by
  cases part with
  | lndbtc => exact congrArg (Option.getD · "") (hlnd "BTC" (by decide))
  | lndltc => exact congrArg (Option.getD · "") (hlnd "LTC" (by decide))
  | connext => exact congrArg (Option.getD · "") hconnext

section Forms

variable {before after : List (String × Json)}

theorem statusIn_lndEntries_of_object {xs ys : List (String × Json)} (h : EntriesGrow xs ys)
    (hasked : currency ∈ ["BTC", "LTC"]) :
    statusIn (lndEntries (.object (before ++ ("lnd", .object ys) :: after))) currency =
      statusIn (lndEntries (.object (before ++ ("lnd", .object xs) :: after))) currency := by
  rcases Json.get?_replace_self "lnd" before after with hread | ⟨later, hread⟩
  · rw [lndEntries_of_object (hread _), lndEntries_of_object (hread _)]
    exact h.statusIn hasked
  · rw [lndEntries_congr ((hread _).trans (hread _).symm)
      (Json.get?_replace_of_ne (by decide) _ _)]

theorem statusIn_lndEntries_of_pairs {xs ys : List Json} (h : PairsGrow xs ys)
    (hasked : currency ∈ ["BTC", "LTC"]) :
    statusIn (lndEntries (.object (before ++ ("lndMap", .array ys) :: after))) currency =
      statusIn (lndEntries (.object (before ++ ("lndMap", .array xs) :: after))) currency := by
  have hlnd : (Json.object (before ++ ("lndMap", .array ys) :: after)).get? "lnd" =
      (Json.object (before ++ ("lndMap", .array xs) :: after)).get? "lnd" :=
    Json.get?_replace_of_ne (by decide) _ _
  rcases Json.get?_replace_self "lndMap" before after with hread | ⟨later, hread⟩
  · by_cases hobject : ∃ entries,
        (Json.object (before ++ ("lndMap", .array xs) :: after)).get? "lnd" = some (.object entries)
    · obtain ⟨entries, hobject⟩ := hobject
      rw [lndEntries_of_object hobject, lndEntries_of_object (hlnd.trans hobject)]
    · push Not at hobject
      rw [lndEntries_of_pairs hobject (hread _),
        lndEntries_of_pairs (by rwa [hlnd]) (hread _)]
      exact h.statusIn hasked
  · rw [lndEntries_congr hlnd ((hread _).trans (hread _).symm)]

end Forms

/-- What a document has more makes no difference to a part. -/
theorem DocumentGrows.status (h : DocumentGrows j k) (part : XudPart) :
    part.status k = part.status j := by
  cases h with
  | @field xs ys hadds =>
    have hget : ∀ name ∈ ["lnd", "lndMap", "connext"],
        (Json.object ys).get? name = (Json.object xs).get? name := fun _ => hadds.lookup?
    refine part.status_congr (fun _ _ => ?_) (congrArg _ (hget "connext" (by decide)))
    rw [lndEntries_congr (hget "lnd" (by decide)) (hget "lndMap" (by decide))]
  | lnd before hgrows after =>
    refine part.status_congr (fun _ => statusIn_lndEntries_of_object hgrows) ?_
    rw [Json.get?_replace_of_ne (by decide)]
  | pairs before hgrows after =>
    refine part.status_congr (fun _ => statusIn_lndEntries_of_pairs hgrows) ?_
    rw [Json.get?_replace_of_ne (by decide)]
  | connext before hentry after =>
    refine part.status_congr (fun _ _ => ?_) ?_
    · rw [lndEntries_congr (Json.get?_replace_of_ne (by decide) _ _)
        (Json.get?_replace_of_ne (by decide) _ _)]
    · rcases Json.get?_replace_self "connext" before after with hread | ⟨later, hread⟩
      · rw [hread, hread, Option.map_some, Option.map_some, hentry.statusOf]
      · rw [hread, hread]
  | spare before value after hlast =>
    have hlnd := Json.get?_eq_some_iff.mpr ⟨_, rfl, hlast⟩
    refine part.status_congr (fun _ _ => ?_) ?_
    · rw [lndEntries_of_object hlnd,
        lndEntries_of_object ((Json.get?_insert_of_ne (by decide) value).trans hlnd)]
    · rw [Json.get?_insert_of_ne (by decide)]

/-- Entries written as pairs are read back as they are. -/
theorem filterMap_pairOf (entries : List (String × Json)) :
    (entries.map pairOf).filterMap entryOfPair? = entries := by
  rw [List.filterMap_map]
  exact List.filterMap_some

/-- In either form the same entries of the lnd clients are read. -/
theorem lndEntries_form {before entries after : List (String × Json)}
    (h : ∀ member ∈ before ++ after, member.1 ≠ "lnd" ∧ member.1 ≠ "lndMap") :
    lndEntries (.object (before ++ ("lndMap", .array (entries.map pairOf)) :: after)) =
      lndEntries (.object (before ++ ("lnd", .object entries) :: after)) := by
  have hmem : ∀ member ∈ after, member ∈ before ++ after := fun _ =>
    List.mem_append_right before
  have hobject : LndEntries (.object (before ++ ("lnd", .object entries) :: after)) entries :=
    .object ⟨_, rfl, before, after, rfl, fun member hmember => (h member (hmem member hmember)).1⟩
  have hpairs : LndEntries (.object (before ++ ("lndMap", .array (entries.map pairOf)) :: after))
      ((entries.map pairOf).filterMap entryOfPair?) := by
    refine .pairs (fun members hlnd => ?_)
      ⟨_, rfl, before, after, rfl, fun member hmember => (h member (hmem member hmember)).2⟩
    have hread := Json.get?_eq_some_iff.mpr hlnd
    rw [Json.get?_insert_of_ne (by decide), Json.get?,
      Json.lookup?_eq_none_iff.mpr fun member hmember => (h member hmember).1] at hread
    cases hread
  rw [lndEntries_eq hobject, lndEntries_eq hpairs, filterMap_pairOf]

/-- Documents that tell the same of the parts have each part read the same. -/
theorem TellsSame.status (h : TellsSame j k) (part : XudPart) : part.status k = part.status j := by
  induction h with
  | grows h => exact h.status part
  | form before entries after h =>
    refine part.status_congr (fun _ _ => by rw [lndEntries_form h]) ?_
    rw [Json.get?_insert_of_ne (by decide), Json.get?_insert_of_ne (by decide)]
  | symm _ ih => exact ih.symm
  | trans _ _ ihij ihjk => exact ihjk.trans ihij

/-! ### The status of xud -/

namespace XudPart

variable {part : XudPart}

/-- The names of the parts never read like the lack of channels. -/
theorem waitingText_names_ne (p : XudPart → Bool) :
    waitingText ((all.filter p).map name) ≠ waitingForChannelsText := by
  cases hbtc : p .lndbtc <;> cases hltc : p .lndltc <;> cases hconnext : p .connext <;>
    simp only [all, List.filter, hbtc, hltc, hconnext] <;> decide

/-- The status that the parts make in a document. -/
def composite (j : Json) : String :=
  compositeStatus (all.map fun part => (part.name, part.status j))

theorem composite_eq_ready_iff :
    composite j = StatusReport.readyText ↔
      ∀ part : XudPart, part.Tells j StatusReport.readyText := by
  rw [composite, compositeStatus_eq_ready_iff, List.forall_mem_map]
  exact ⟨fun h part => ready_iff_tells.mp (h part (mem_all part)),
    fun h part _ => ready_iff_tells.mpr (h part)⟩

theorem composite_eq_channels_iff :
    composite j = waitingForChannelsText ↔
      ∃ (part : XudPart) (s : String), part.Tells j s ∧ noChannelsMark.toList <:+: s.toList := by
  rw [composite, compositeStatus_eq_channels_iff]
  · constructor
    · rintro ⟨c, hc, hmark⟩
      obtain ⟨part, -, rfl⟩ := List.mem_map.mp hc
      exact ⟨part, marked_iff_tells.mp hmark⟩
    · rintro ⟨part, hmark⟩
      exact ⟨_, List.mem_map_of_mem (mem_all part), marked_iff_tells.mpr hmark⟩
  · intro p
    rw [List.filter_map, List.map_map]
    exact waitingText_names_ne _

/-- The parts that a document does not tell ready. -/
def waiting (j : Json) : List XudPart :=
  all.filter fun part => part.status j != StatusReport.readyText

theorem mem_waiting_iff : part ∈ waiting j ↔ ¬ part.Tells j StatusReport.readyText := by
  rw [waiting, List.mem_filter, bne_iff_ne, ← ready_iff_tells]
  exact and_iff_right (mem_all part)

theorem composite_of_waiting (hnot : ∃ part : XudPart, ¬ part.Tells j StatusReport.readyText)
    (hmark : ∀ (part : XudPart) (s : String), part.Tells j s →
      ¬ noChannelsMark.toList <:+: s.toList) :
    composite j = waitingText ((waiting j).map name) := by
  rw [composite, compositeStatus_of_unmarked, List.filter_map, List.map_map]
  · rfl
  · obtain ⟨part, hnot⟩ := hnot
    exact ⟨_, List.mem_map_of_mem (mem_all part), fun hready => hnot (ready_iff_tells.mp hready)⟩
  · rw [List.forall_mem_map]
    intro part _ hmarked
    obtain ⟨s, hs, hmarked⟩ := marked_iff_tells.mp hmarked
    exact hmark part s hs hmarked

end XudPart

/-- The report says of xud what a document tells of its parts. -/
structure ShowsParts (j : Json) (report : StatusReport) : Prop where
  ready_iff : report.text = "Ready" ↔ ∀ part : XudPart, part.Tells j "Ready"
  channels_iff : report.text = "Waiting for channels" ↔
    ∃ (part : XudPart) (status : String), part.Tells j status ∧
      "has no active channels".toList <:+: status.toList
  /-- Otherwise the parts that are not ready stand in their order. -/
  waiting_of : (∃ part : XudPart, ¬ part.Tells j "Ready") →
    (∀ (part : XudPart) (status : String), part.Tells j status →
      ¬ "has no active channels".toList <:+: status.toList) →
    ∃ waiting : List XudPart, waiting.Sublist [.lndbtc, .lndltc, .connext] ∧
      (∀ part, part ∈ waiting ↔ ¬ part.Tells j "Ready") ∧
      report.text = "Waiting for " ++ ", ".intercalate (waiting.map XudPart.name)

/-- The report on xud, by what is read of the parts. -/
def partsReport (status : XudPart → String) : StatusReport :=
  let parts := XudPart.all.map fun part => (part.name, status part)
  Probe.withDetail (compositeStatus parts) (parts.map fun p => (p.1, .string p.2))

variable {endpoint : String} {out : ExecOutput}

theorem xud_info (hout : out.success = true) (hj : Json.parse (Text.trim out.output) = .ok j) :
    Probe.xud (Xucli.info endpoint (.ok out)) = .ok (partsReport fun part => part.status j) := by
  rw [Xucli.info, if_pos hout, Xucli.readInfo, hj]
  dsimp only [Probe.xud, partsReport]
  rw [xudParts_ofJson]

theorem partsReport_showsParts (j : Json) :
    ShowsParts j (partsReport fun part => part.status j) where
  ready_iff := XudPart.composite_eq_ready_iff
  channels_iff := XudPart.composite_eq_channels_iff
  waiting_of hnot hmark :=
    ⟨XudPart.waiting j, List.filter_sublist, fun _ => XudPart.mem_waiting_iff,
      XudPart.composite_of_waiting hnot hmark⟩

/-- The document that the tool prints when it ends well is read for the status that its parts make,
and each document that tells the same of the parts, in either form, gives the same report. -/
theorem xud_showsParts (endpoint : String) {out : ExecOutput} {j : Json}
    (hout : out.success = true) (hj : Json.parse (Text.trim out.output) = .ok j) :
    ∃ report, Probe.xud (Xucli.info endpoint (.ok out)) = .ok report ∧ ShowsParts j report ∧
      ∀ (other : ExecOutput) (k : Json), other.success = true →
        Json.parse (Text.trim other.output) = .ok k → TellsSame j k →
          Probe.xud (Xucli.info endpoint (.ok other)) = .ok report := by
  refine ⟨_, xud_info hout hj, partsReport_showsParts j, fun other k hother hk hsame => ?_⟩
  rw [xud_info hother hk, funext hsame.status]

def readyEntry : Json :=
  .object [("status", .string "Ready")]

/-- A document in the form of pairs, which tells nothing of the client for LTC. -/
def pairsDocument : Json :=
  .object [("lndMap", .array [.array [.string "BTC", readyEntry]]), ("connext", readyEntry)]

def pairsPrinted : ExecOutput :=
  { output := "\x7b\"lndMap\":[[\"BTC\",\x7b\"status\":\"Ready\"\x7d]]," ++
      "\"connext\":\x7b\"status\":\"Ready\"\x7d\x7d\n"
    exitCode := 0 }

/-- The same in the form of an object, with a currency more. -/
def objectDocument : Json :=
  .object [("lnd", .object [("BTC", readyEntry), ("ETH", .null)]), ("connext", readyEntry)]

def objectPrinted : ExecOutput :=
  { output := "\x7b\"lnd\":\x7b\"BTC\":\x7b\"status\":\"Ready\"\x7d,\"ETH\":null\x7d," ++
      "\"connext\":\x7b\"status\":\"Ready\"\x7d\x7d\n"
    exitCode := 0 }

theorem pairsDocument_tellsSame : TellsSame pairsDocument objectDocument := by
  have hform : TellsSame (.object [("lnd", .object [("BTC", readyEntry)]), ("connext", readyEntry)])
      pairsDocument :=
    .form [] [("BTC", readyEntry)] [("connext", readyEntry)] (by decide)
  refine hform.symm.trans (.grows (.lnd [] (.currency ?_) _))
  exact ⟨[("BTC", readyEntry)], [], "ETH", .null, by decide, rfl, rfl⟩

theorem pairsPrinted_showsParts :
    ∃ report, Probe.xud (Xucli.info "xud" (.ok pairsPrinted)) = .ok report ∧
      ShowsParts pairsDocument report ∧
      Probe.xud (Xucli.info "xud" (.ok objectPrinted)) = .ok report := by
  obtain ⟨report, hreport, hparts, hsame⟩ :=
    @xud_showsParts "xud" pairsPrinted pairsDocument rfl (by cbv)
  exact ⟨report, hreport, hparts,
    hsame objectPrinted objectDocument rfl (by cbv) pairsDocument_tellsSame⟩

end FleetWatch
