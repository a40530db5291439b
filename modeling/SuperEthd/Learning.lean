import SuperEthd.Lib.Path
import SuperEthd.Address
import SuperEthd.ForwardingDatabase
import Mathlib.Logic.Function.Basic

/-! # Learning

How the TAP reader, the TAP writer and the maintenance thread use the forwarding database.  A
handler looks the source of a frame up under the shared lock, where it refreshes an entry it finds;
if there is none it lets the lock go and adds one under the exclusive lock, so the other handler and
the maintenance thread may come between.  The database is compared with the sightings so far: each
address is to lead where it was seen last, until it expires. -/
namespace SuperEthd

/-- The two threads that learn. -/
inductive Handler
  | tap_read
  | tap_write
  deriving DecidableEq

/-- The reader learns local addresses, the writer those of the nodes. -/
def handlerOf {Node : Type} : Option Node → Handler
  | none => .tap_read
  | some _ => .tap_write

/-- What happens under one lock. -/
inductive LearningEvent (Node : Type)
  /-- a frame with a multicast source is dropped -/
  | dropped (mac : FDBMACAddress) (dest : Option Node)
  /-- the source of a frame is looked up in vain -/
  | missed (mac : FDBMACAddress) (dest : Option Node)
  /-- a frame from this source, seen at that place, is learned: the entry is refreshed or added -/
  | sighted (mac : FDBMACAddress) (dest : Option Node) (now : Int)
  | expired (now : Int)

/-- The database, and the frame whose source a handler is about to add. -/
structure Learning (Node : Type) where
  fdb : FDB Node
  pending : Handler → Option (FDBMACAddress × Option Node)

namespace Learning
variable {Node : Type}

/-- Nothing is learned yet. -/
def start : Learning Node := ⟨KeyedList.empty, fun _ => none⟩

/-- **The threads**, one locked section at a time. -/
inductive Step (expire_time : Int) : Learning Node → LearningEvent Node → Learning Node → Prop
  | dropped {s : Learning Node} {mac : FDBMACAddress} {dest : Option Node}
      (idle : s.pending (handlerOf dest) = none) (group : isMulticast mac = true) :
      Step expire_time s (.dropped mac dest) s
  | found {s : Learning Node} {mac : FDBMACAddress} {dest : Option Node} {now : Int}
      {entry : FDBEntry Node} (idle : s.pending (handlerOf dest) = none)
      (unicast : isMulticast mac = false) (found : s.fdb.get mac = some entry) :
      Step expire_time s (.sighted mac dest now) { s with fdb := s.fdb.updateLastSeen mac now }
  | missed {s : Learning Node} {mac : FDBMACAddress} {dest : Option Node}
      (idle : s.pending (handlerOf dest) = none) (unicast : isMulticast mac = false)
      (missing : s.fdb.get mac = none) :
      Step expire_time s (.missed mac dest)
        { s with pending := Function.update s.pending (handlerOf dest) (some (mac, dest)) }
  | added {s : Learning Node} {mac : FDBMACAddress} {dest : Option Node} {now : Int}
      (pending : s.pending (handlerOf dest) = some (mac, dest)) :
      Step expire_time s (.sighted mac dest now)
        ⟨(s.fdb.add mac dest now).2, Function.update s.pending (handlerOf dest) none⟩
  | expired {s : Learning Node} {now : Int} :
      Step expire_time s (.expired now) { s with fdb := s.fdb.expireEntries expire_time now }

/-! ## What the database is for -/

/-- Unseen for more than the limit, which is in seconds, while the times are in nanoseconds: another whole
second has gone by.  Below zero seconds are cut off towards zero, so that there less than one will do. -/
def Unseen (expire_time since now : Int) : Prop :=
  if 0 ≤ expire_time then since + (expire_time + 1) * 1000000000 ≤ now
  else since + expire_time * 1000000000 < now

/-- After this event the sighting of `mac` at the time `since` still counts. -/
def Keeps (expire_time : Int) (mac : FDBMACAddress) (since : Int) (event : LearningEvent Node) : Prop :=
  (∀ dest now, event ≠ .sighted mac dest now) ∧ ∀ now, event = .expired now → ¬Unseen expire_time since now

/-- The last sighting of `mac` was at `dest`, at the time `since`, and no expiry run found it unseen
for more than the limit. -/
def Current (expire_time : Int) (events : List (LearningEvent Node)) (mac : FDBMACAddress)
    (dest : Option Node) (since : Int) : Prop :=
  ∃ before after, events = before ++ .sighted mac dest since :: after ∧
    ∀ event ∈ after, Keeps expire_time mac since event

/-- **The database follows the sightings**: at most one entry for an address, and exactly the
entries that are current. -/
structure Follows (expire_time : Int) (events : List (LearningEvent Node)) (fdb : FDB Node) : Prop where
  unique : ∀ entry ∈ fdb.values, ∀ entry' ∈ fdb.values, entry.key = entry'.key → entry = entry'
  current : ∀ mac dest, (∃ entry, fdb.get mac = some entry ∧ entry.dest = dest) ↔
    ∃ since, Current expire_time events mac dest since

/-- **A station that moved**: an address is sighted elsewhere than its entry says. -/
def Moved (s : Learning Node) : LearningEvent Node → Prop
  | .sighted mac dest _ => ∃ entry, s.fdb.get mac = some entry ∧ entry.dest ≠ dest
  | _ => False

variable {expire_time : Int} {s s' : Learning Node} {event : LearningEvent Node}
  {events : List (LearningEvent Node)} {mac : FDBMACAddress} {dest : Option Node} {since now : Int}

/-- That is what `expireEntries` compares. -/
theorem unseen_iff : Unseen expire_time since now ↔ secondsSince since now > expire_time := by
  have hsign : Int.sign 1000000000 = 1 := rfl
  unfold Unseen secondsSince
  rw [Int.tdiv_eq_ediv, hsign]
  split <;> split <;> omega

theorem not_current_nil : ¬Current expire_time [] mac dest since := by
  rintro ⟨before, after, h, -⟩
  cases before <;> cases h

/-- One more event. -/
theorem current_concat : Current expire_time (events ++ [event]) mac dest since ↔
    event = .sighted mac dest since ∨
      Current expire_time events mac dest since ∧ Keeps expire_time mac since event := by
  constructor
  · rintro ⟨before, after, h, hkeeps⟩
    rcases List.eq_nil_or_concat after with rfl | ⟨after, last, rfl⟩
    · exact Or.inl (List.singleton_inj.mp (List.append_inj_right' h rfl))
    · rw [List.concat_eq_append] at h hkeeps
      rw [← List.cons_append, ← List.append_assoc] at h
      obtain ⟨rfl, hlast⟩ := List.append_inj' h rfl
      rw [List.singleton_inj.mp hlast]
      have hmem : last ∈ after ++ [last] := List.mem_append_right _ List.mem_cons_self
      exact Or.inr ⟨⟨before, after, rfl, fun e he => hkeeps e (List.mem_append_left _ he)⟩,
        hkeeps last hmem⟩
  · rintro (rfl | ⟨⟨before, after, rfl, hkeeps⟩, hkeep⟩)
    · exact ⟨events, [], rfl, fun e he => absurd he List.not_mem_nil⟩
    · refine ⟨before, after ++ [event], by rw [List.append_assoc, List.cons_append], ?_⟩
      intro e he
      rcases List.mem_append.mp he with he | he
      · exact hkeeps e he
      · rw [List.mem_singleton.mp he]
        exact hkeep

theorem key_of_get {fdb : FDB Node} {entry : FDBEntry Node} (h : fdb.get mac = some entry) :
    entry.key = mac := (KeyedList.find?_eq_some.mp h).2

/-! ## Runs without a moving station -/

/-- The entries are the sightings that are current, with their times; and an address that a handler
is about to add can only have come in from the other one. -/
structure Tracks (expire_time : Int) (events : List (LearningEvent Node)) (s : Learning Node) : Prop where
  get_iff : ∀ mac dest since, s.fdb.get mac = some ⟨mac, dest, since⟩ ↔
    Current expire_time events mac dest since
  pending : ∀ h mac dest, s.pending h = some (mac, dest) → handlerOf dest = h ∧
    ∀ entry, s.fdb.get mac = some entry → handlerOf entry.dest ≠ h

theorem Tracks.start : Tracks expire_time [] (start : Learning Node) := by
  constructor
  · intro mac dest since
    refine iff_of_false (fun hget => ?_) not_current_nil
    cases hget
  · intro h mac dest hpending
    cases hpending

theorem Tracks.follows (h : Tracks expire_time events s) : Follows expire_time events s.fdb := by
  constructor
  · intro entry he entry' he' hkey
    exact s.fdb.unique he he' hkey
  · intro mac dest
    constructor
    · rintro ⟨⟨key, dest, since⟩, hget, rfl⟩
      have hkey : key = mac := key_of_get hget
      exact ⟨since, (h.get_iff mac dest since).mp (hkey ▸ hget)⟩
    · rintro ⟨since, hcurrent⟩
      exact ⟨_, (h.get_iff mac dest since).mpr hcurrent, rfl⟩

/-- An event that is neither a sighting nor an expiry run changes nothing that is current. -/
theorem current_concat_of_quiet (hsight : ∀ mac dest now, event ≠ .sighted mac dest now)
    (hexpire : ∀ now, event ≠ .expired now) :
    Current expire_time (events ++ [event]) mac dest since ↔
      Current expire_time events mac dest since := by
  rw [current_concat]
  constructor
  · rintro (h | ⟨h, -⟩)
    · exact absurd h (hsight mac dest since)
    · exact h
  · intro h
    exact Or.inr ⟨h, hsight mac, fun now h => absurd h (hexpire now)⟩

/-- **A sighting** that leaves an entry of its own for the address. -/
theorem Tracks.get_iff_sighted (h : Tracks expire_time events s) {fdb : FDB Node}
    (hself : fdb.get mac = some ⟨mac, dest, now⟩)
    (hother : ∀ mac', mac' ≠ mac → fdb.get mac' = s.fdb.get mac') (mac' : FDBMACAddress)
    (dest' : Option Node) (since : Int) : fdb.get mac' = some ⟨mac', dest', since⟩ ↔
      Current expire_time (events ++ [.sighted mac dest now]) mac' dest' since := by
  rw [current_concat]
  by_cases hmac : mac' = mac
  · subst hmac
    rw [hself]
    constructor
    · intro heq
      cases heq
      exact Or.inl rfl
    · rintro (heq | ⟨-, hkeeps⟩)
      · cases heq
        rfl
      · exact absurd rfl (hkeeps.1 dest now)
  · rw [hother mac' hmac, h.get_iff]
    constructor
    · intro hcurrent
      refine Or.inr ⟨hcurrent, ?_, ?_⟩
      · intro dest now heq
        exact hmac (LearningEvent.sighted.inj heq).1.symm
      · intro now heq
        cases heq
    · rintro (heq | ⟨hcurrent, -⟩)
      · exact absurd (LearningEvent.sighted.inj heq).1.symm hmac
      · exact hcurrent

theorem Tracks.get_iff_expired (h : Tracks expire_time events s) (mac : FDBMACAddress)
    (dest : Option Node) (since : Int) :
    (s.fdb.expireEntries expire_time now).get mac = some ⟨mac, dest, since⟩ ↔
      Current expire_time (events ++ [.expired now]) mac dest since := by
  rw [current_concat, FDB.get_expireEntries, Option.filter_eq_some_iff, h.get_iff,
    Bool.not_eq_true', decide_eq_false_iff_not, ← unseen_iff]
  constructor
  · rintro ⟨hcurrent, hyoung⟩
    refine Or.inr ⟨hcurrent, ?_, ?_⟩
    · intro dest now heq
      cases heq
    · intro now' heq
      cases heq
      exact hyoung
  · rintro (heq | ⟨hcurrent, hkeeps⟩)
    · cases heq
    · exact ⟨hcurrent, hkeeps.2 now rfl⟩

/-- An entry that a refreshed, extended or expired database has for an address. -/
theorem Tracks.pending_of_get (h : Tracks expire_time events s) {fdb : FDB Node}
    (hfdb : ∀ mac entry, fdb.get mac = some entry →
      ∃ entry', s.fdb.get mac = some entry' ∧ entry'.dest = entry.dest)
    {handler : Handler} (hpending : s.pending handler = some (mac, dest)) :
    handlerOf dest = handler ∧ ∀ entry, fdb.get mac = some entry → handlerOf entry.dest ≠ handler := by
  obtain ⟨hdest, hother⟩ := h.pending handler mac dest hpending
  refine ⟨hdest, ?_⟩
  intro entry hget
  obtain ⟨entry', hget', heq⟩ := hfdb mac entry hget
  exact heq ▸ hother entry' hget'

theorem dest_of_updateLastSeen {fdb : FDB Node} {mac' : FDBMACAddress} {entry : FDBEntry Node}
    (hget : (fdb.updateLastSeen mac now).get mac' = some entry) :
    ∃ entry', fdb.get mac' = some entry' ∧ entry'.dest = entry.dest := by
  by_cases hmac : mac' = mac
  · subst hmac
    rw [FDB.get_updateLastSeen_self] at hget
    obtain ⟨entry', hget', rfl⟩ := Option.map_eq_some_iff.mp hget
    exact ⟨entry', hget', rfl⟩
  · rw [FDB.get_updateLastSeen_of_ne hmac] at hget
    exact ⟨entry, hget, rfl⟩

theorem dest_of_expireEntries {fdb : FDB Node} {entry : FDBEntry Node}
    (hget : (fdb.expireEntries expire_time now).get mac = some entry) :
    ∃ entry', fdb.get mac = some entry' ∧ entry'.dest = entry.dest := by
  rw [FDB.get_expireEntries, Option.filter_eq_some_iff] at hget
  exact ⟨entry, hget.1, rfl⟩

/-- A destination that an entry has afterwards was there before, or comes from the frame. -/
theorem Step.dest_of_get (hstep : Step expire_time s event s') {entry : FDBEntry Node}
    (hget : s'.fdb.get mac = some entry) :
    (∃ entry', s.fdb.get mac = some entry' ∧ entry'.dest = entry.dest) ∨
      ∃ now, event = .sighted mac entry.dest now := by
  cases hstep with
  | dropped => exact Or.inl ⟨entry, hget, rfl⟩
  | found => exact Or.inl (dest_of_updateLastSeen hget)
  | missed => exact Or.inl ⟨entry, hget, rfl⟩
  | @added mac' dest now =>
    by_cases hmac : mac' = mac
    · subst hmac
      cases hold : s.fdb.get mac' with
      | none =>
        rw [FDB.get_add_self hold] at hget
        cases hget
        exact Or.inr ⟨now, rfl⟩
      | some entry' =>
        rw [FDB.add_of_some hold, hold] at hget
        exact Or.inl ⟨entry', rfl, congrArg FDBEntry.dest (Option.some.inj hget)⟩
    · rw [FDB.get_add_of_ne hmac] at hget
      exact Or.inl ⟨entry, hget, rfl⟩
  | expired => exact Or.inl (dest_of_expireEntries hget)

/-- **One locked section** at which no station has moved. -/
theorem Tracks.step (h : Tracks expire_time events s) (hstep : Step expire_time s event s')
    (hstay : ¬Moved s event) : Tracks expire_time (events ++ [event]) s' := by
  cases hstep with
  | dropped =>
    refine ⟨fun mac dest since => ?_, h.pending⟩
    rw [h.get_iff, current_concat_of_quiet]
    · intro mac dest now heq
      cases heq
    · intro now heq
      cases heq
  | @found mac dest now entry idle unicast found =>
    have hdest : entry.dest = dest := not_not.mp fun hne => hstay ⟨entry, found, hne⟩
    have hkey : entry.key = mac := key_of_get found
    constructor
    · refine h.get_iff_sighted ?_ fun mac' hne => FDB.get_updateLastSeen_of_ne hne
      rw [FDB.get_updateLastSeen_self, found, ← hkey, ← hdest]
      rfl
    · intro handler mac' dest' hpending
      exact h.pending_of_get (fun _ _ => dest_of_updateLastSeen) hpending
  | @missed mac dest idle unicast missing =>
    constructor
    · intro mac' dest' since
      rw [h.get_iff, current_concat_of_quiet]
      · intro mac dest now heq
        cases heq
      · intro now heq
        cases heq
    · intro handler mac' dest' (hpending : Function.update s.pending _ _ handler = _)
      by_cases hhandler : handler = handlerOf dest
      · subst hhandler
        rw [Function.update_self] at hpending
        obtain ⟨rfl, rfl⟩ := Prod.mk.inj (Option.some.inj hpending)
        refine ⟨rfl, fun entry hget => ?_⟩
        cases missing.symm.trans hget
      · rw [Function.update_of_ne hhandler] at hpending
        exact h.pending handler mac' dest' hpending
  | @added mac dest now pending =>
    obtain ⟨-, hother⟩ := h.pending _ _ _ pending
    -- whatever was added since the look-up is the other handler's, so the station would have moved
    have hnone : s.fdb.get mac = none := by
      rw [Option.eq_none_iff_forall_ne_some]
      intro entry hget
      exact hstay ⟨entry, hget, fun hdest => hother entry hget (congrArg handlerOf hdest)⟩
    have hne' : ∀ mac', mac' ≠ mac → (s.fdb.add mac dest now).2.get mac' = s.fdb.get mac' :=
      fun mac' hne => FDB.get_add_of_ne hne.symm
    constructor
    · exact h.get_iff_sighted (FDB.get_add_self hnone) hne'
    · intro handler mac' dest' (hpending : Function.update s.pending _ none handler = _)
      have hhandler : handler ≠ handlerOf dest := by
        rintro rfl
        rw [Function.update_self] at hpending
        cases hpending
      rw [Function.update_of_ne hhandler] at hpending
      obtain ⟨hdest', hother'⟩ := h.pending handler mac' dest' hpending
      refine ⟨hdest', fun entry hget => ?_⟩
      by_cases hmac : mac' = mac
      · subst hmac
        rw [FDB.get_add_self hnone] at hget
        cases hget
        exact hhandler.symm
      · rw [hne' mac' hmac] at hget
        exact hother' entry hget
  | expired =>
    constructor
    · exact h.get_iff_expired
    · intro handler mac' dest' hpending
      exact h.pending_of_get (fun _ _ => dest_of_expireEntries) hpending

/-- **The database follows the most recent sightings** in every run in which no station is sighted
elsewhere than its entry says: nothing ever changes the destination of an entry. -/
theorem follows_of_path (hrun : StepPath (fun s event s' => Step expire_time s event s' ∧ ¬Moved s event)
    (start : Learning Node) events s) : Follows expire_time events s.fdb := by
  have h : Tracks expire_time ([] ++ events) s :=
    hrun.invariant_prefix [] (fun _ _ _ _ h hstep => h.step hstep.1 hstep.2) Tracks.start
  exact h.follows

/-- Two stations, a local one and one behind a node; the local one is seen again and then expires. -/
theorem follows_of_path_two :
    let first : FDBMACAddress := #v[0x02, 0, 0, 0, 0, 0x01]
    let second : FDBMACAddress := #v[0x02, 0, 0, 0, 0, 0x02]
    let node : In6Addr := mappedAddr #v[192, 0, 2, 1]
    let events : List (LearningEvent In6Addr) :=
      [.missed first none, .missed second (some node), .sighted second (some node) 5000000000,
        .sighted first none 6000000000, .sighted first none 7000000000, .expired 306000000000]
    ∃ s : Learning In6Addr,
      StepPath (fun s event s' => Step 300 s event s' ∧ ¬Moved s event) start events s ∧
        s.fdb.values = [⟨first, none, 7000000000⟩] ∧ Follows 300 events s.fdb := by
  intro first second node events
  obtain ⟨s, hrun, hvalues⟩ : ∃ s : Learning In6Addr,
      StepPath (fun s event s' => Step 300 s event s' ∧ ¬Moved s event) start events s ∧
        s.fdb.values = [⟨first, none, 7000000000⟩] := by
    refine ⟨_, .cons ⟨.missed rfl (by decide) rfl, not_false⟩ (.cons
      ⟨.missed rfl (by decide) rfl, not_false⟩ (.cons ⟨.added (by decide), ?_⟩ (.cons
        ⟨.added (by decide), ?_⟩ (.cons ⟨.found (by decide) (by decide) rfl, ?_⟩ (.cons
          ⟨.expired, not_false⟩ (.nil _)))))), by decide⟩
    · rintro ⟨entry, hget, -⟩
      cases hget
    · rintro ⟨entry, hget, -⟩
      cases hget
    · rintro ⟨entry, hget, hdest⟩
      cases hget
      exact hdest rfl
  exact ⟨s, hrun, hvalues, follows_of_path hrun⟩

/-- The condition is exact: after a step at which a station moved its entry leads to the old place. -/
theorem not_follows_of_moved (hstep : Step expire_time s event s') (hmoved : Moved s event)
    (events : List (LearningEvent Node)) : ¬Follows expire_time (events ++ [event]) s'.fdb := by
  intro hfollows
  cases event with
  | sighted mac dest now =>
    obtain ⟨entry, hget, hdest⟩ := hmoved
    have hcurrent : Current expire_time (events ++ [.sighted mac dest now]) mac dest now :=
      current_concat.mpr (Or.inl rfl)
    obtain ⟨entry', hget', hdest'⟩ := (hfollows.current mac dest).mpr ⟨now, hcurrent⟩
    cases hstep with
    | found =>
      rw [FDB.get_updateLastSeen_self, hget] at hget'
      cases hget'
      exact hdest hdest'
    | added =>
      rw [FDB.add_of_some hget, hget] at hget'
      cases hget'
      exact hdest hdest'
  | dropped => exact hmoved
  | missed => exact hmoved
  | expired => exact hmoved

/-- **A station that moves** from the local segment to a node stays local in the database, for as long
as it is heard of. -/
theorem moved_station_stays_local :
    let mac : FDBMACAddress := #v[0x02, 0, 0, 0, 0, 0x01]
    let node : In6Addr := mappedAddr #v[192, 0, 2, 1]
    let events : List (LearningEvent In6Addr) :=
      [.missed mac none, .sighted mac none 1000000000, .sighted mac (some node) 2000000000]
    ∃ s : Learning In6Addr, StepPath (Step 300) start events s ∧
      s.fdb.values = [⟨mac, none, 2000000000⟩] ∧ ¬Follows 300 events s.fdb := by
  intro mac node events
  obtain ⟨s, hrun, hvalues⟩ : ∃ s : Learning In6Addr, StepPath (Step 300) start events s ∧
      s.fdb.values = [⟨mac, none, 2000000000⟩] :=
    ⟨_, .cons (.missed rfl (by decide) rfl) (.cons (.added (by decide)) (.cons
      (.found (by decide) (by decide) rfl) (.nil _))), by decide⟩
  refine ⟨s, hrun, hvalues, fun hfollows => ?_⟩
  have hcurrent : Current 300 events mac (some node) 2000000000 :=
    ⟨events.take 2, [], rfl, fun _ h => absurd h List.not_mem_nil⟩
  obtain ⟨entry, hget, hdest⟩ := (hfollows.current mac (some node)).mpr ⟨_, hcurrent⟩
  have hmem := (KeyedList.find?_eq_some.mp hget).1
  rw [hvalues] at hmem
  rw [List.mem_singleton.mp hmem] at hdest
  cases hdest

end Learning
end SuperEthd
