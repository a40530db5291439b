import Mathlib.Data.List.Flatten
import Mathlib.Data.List.Perm.Basic
import SuperEthd.Lib.Path

/-! # A channel

What was sent is in flight until it arrives, in the order in which it was sent but for what the channel
does of its own: it may lose what is in flight, make two of one, and change the order.  Every arrival
has the number of what was sent (`exists_numbers`); the numbers are in order if the channel only loses,
and none is missing if it does nothing. -/

variable {α : Type}

/-- What a channel does of its own. -/
inductive ChannelFault
  | lost
  | duplicated
  | reordered
  deriving DecidableEq

/-- What happens to a channel. -/
inductive ChannelEvent (α : Type)
  | sent (a : α)
  | arrived (a : α)
  | fault (fault : ChannelFault)

namespace ChannelEvent

def sentOf : ChannelEvent α → List α
  | sent a => [a]
  | _ => []

def arrivedOf : ChannelEvent α → List α
  | arrived a => [a]
  | _ => []

/-- All that was sent. -/
def allSent (events : List (ChannelEvent α)) : List α := events.flatMap sentOf

/-- All that arrived. -/
def allArrived (events : List (ChannelEvent α)) : List α := events.flatMap arrivedOf

theorem allSent_append (events events' : List (ChannelEvent α)) :
    allSent (events ++ events') = allSent events ++ allSent events' := List.flatMap_append

theorem allArrived_append (events events' : List (ChannelEvent α)) :
    allArrived (events ++ events') = allArrived events ++ allArrived events' := List.flatMap_append

@[simp] theorem allSent_map_sent (as : List α) : allSent (as.map sent) = as := by
  induction as with
  | nil => rfl
  | cons a as ih => exact congrArg (a :: ·) ih

@[simp] theorem allSent_map_arrived (as : List α) : allSent (as.map arrived) = [] := by
  induction as with
  | nil => rfl
  | cons a as ih => exact ih

@[simp] theorem allArrived_map_sent (as : List α) : allArrived (as.map sent) = [] := by
  induction as with
  | nil => rfl
  | cons a as ih => exact ih

@[simp] theorem allArrived_map_arrived (as : List α) : allArrived (as.map arrived) = as := by
  induction as with
  | nil => rfl
  | cons a as ih => exact congrArg (a :: ·) ih

end ChannelEvent

namespace Channel
open ChannelEvent ChannelFault

/-- **A channel**, with what is in flight. -/
inductive Step : List α → ChannelEvent α → List α → Prop
  | send {flying : List α} {a : α} : Step flying (.sent a) (flying ++ [a])
  | arrive {flying : List α} {a : α} : Step (a :: flying) (.arrived a) flying
  | lose {l r : List α} {a : α} : Step (l ++ a :: r) (.fault lost) (l ++ r)
  | duplicate {l r : List α} {a : α} : Step (l ++ a :: r) (.fault duplicated) (l ++ a :: a :: r)
  | reorder {flying flying' : List α} (perm : flying.Perm flying') : Step flying (.fault reordered) flying'

/-- The element with the number was sent. -/
def Sent (events : List (ChannelEvent α)) (j : Nat) (a : α) : Prop := (allSent events)[j]? = some a

/-- The numbers of what arrived, and of what is in flight. -/
structure Numbered (events : List (ChannelEvent α)) (flying : List α) (js ks : List Nat) : Prop where
  arrived : List.Forall₂ (Sent events) js (allArrived events)
  flying : List.Forall₂ (Sent events) ks flying
  nodup : .fault duplicated ∉ events → (js ++ ks).Nodup
  sublist : .fault duplicated ∉ events → .fault reordered ∉ events →
    (js ++ ks).Sublist (List.range (allSent events).length)
  complete : (∀ fault, .fault fault ∉ events) → js ++ ks = List.range (allSent events).length

variable {events : List (ChannelEvent α)} {event : ChannelEvent α} {flying flying' : List α} {js ks : List Nat}

theorem allSent_concat : allSent (events ++ [event]) = allSent events ++ event.sentOf := by
  rw [allSent_append, allSent, allSent, List.flatMap_singleton]

theorem allArrived_concat : allArrived (events ++ [event]) = allArrived events ++ event.arrivedOf := by
  rw [allArrived_append, allArrived, allArrived, List.flatMap_singleton]

@[simp] theorem allSent_fault (fault : ChannelFault) : allSent (events ++ [.fault fault]) = allSent events := by
  rw [allSent_concat]
  exact List.append_nil _

@[simp] theorem allArrived_fault (fault : ChannelFault) :
    allArrived (events ++ [.fault fault]) = allArrived events := by
  rw [allArrived_concat]
  exact List.append_nil _

/-- A number stays what it is. -/
theorem Sent.concat {j : Nat} {a : α} (h : Sent events j a) (event : ChannelEvent α) :
    Sent (events ++ [event]) j a := by
  obtain ⟨hj, heq⟩ := List.getElem?_eq_some_iff.mp h
  rw [Sent, allSent_concat, List.getElem?_append_left hj]
  exact h

/-- A fault is no arrival. -/
theorem Numbered.arrived_fault (h : Numbered events flying js ks) (fault : ChannelFault) :
    List.Forall₂ (Sent (events ++ [.fault fault])) js (allArrived (events ++ [.fault fault])) := by
  rw [allArrived_fault]
  exact h.arrived.imp fun _ _ h => h.concat _

/-- The numbers around that of one element. -/
theorem exists_split {l r : List α} {a : α} {R : Nat → α → Prop} (h : List.Forall₂ R ks (l ++ a :: r)) :
    ∃ k1 k k2, ks = k1 ++ k :: k2 ∧ List.Forall₂ R k1 l ∧ R k a ∧ List.Forall₂ R k2 r := by
  have htake := List.forall₂_take_append ks l (a :: r) h
  obtain ⟨k, k2, hk, h2, hdrop⟩ := List.forall₂_cons_right_iff.mp (List.forall₂_drop_append ks l (a :: r) h)
  exact ⟨ks.take l.length, k, k2, hdrop ▸ (List.take_append_drop _ ks).symm, htake, hk, h2⟩

theorem lt_of_sent {l : List Nat} {as : List α} (h : List.Forall₂ (Sent events) l as) :
    ∀ k ∈ l, k < (allSent events).length := by
  induction h with
  | nil => exact fun k hk => absurd hk List.not_mem_nil
  | cons hsent _ ih => exact List.forall_mem_cons.mpr ⟨(List.getElem?_eq_some_iff.mp hsent).1, ih⟩

/-- **One step.** -/
theorem Numbered.exists_step (h : Numbered events flying js ks) (hstep : Step flying event flying') :
    ∃ js' ks', Numbered (events ++ [event]) flying' js' ks' := by
  have hkept : ∀ {l : List Nat} {as : List α}, List.Forall₂ (Sent events) l as →
      List.Forall₂ (Sent (events ++ [event])) l as := fun h => h.imp fun _ _ h => h.concat event
  have hnot : ∀ {event'}, event' ∉ events ++ [event] → event' ∉ events := fun h hmem =>
    h (List.mem_append_left _ hmem)
  have hself : event ∈ events ++ [event] := List.mem_append_right _ List.mem_cons_self
  cases hstep with
  | @send flying a =>
    have hlen : (allSent (events ++ [.sent a])).length = (allSent events).length + 1 := by
      rw [allSent_concat, List.length_append]
      rfl
    have hlast : Sent (events ++ [.sent a]) (allSent events).length a := by
      rw [Sent, allSent_concat]
      exact List.getElem?_concat_length
    refine ⟨js, ks ++ [(allSent events).length], ?_, ?_, fun hd => ?_, fun hd hr => ?_, fun hf => ?_⟩
    · rw [allArrived_concat]
      exact (List.append_nil (allArrived events)).symm ▸ hkept h.arrived
    · exact List.rel_append (hkept h.flying) (.cons hlast .nil)
    · rw [← List.append_assoc]
      refine List.nodup_append.mpr ⟨h.nodup (hnot hd), List.pairwise_singleton _ _, fun k hk k' hk' => ?_⟩
      rw [List.mem_singleton.mp hk']
      exact Nat.ne_of_lt (List.forall_mem_append.mpr ⟨lt_of_sent h.arrived, lt_of_sent h.flying⟩ k hk)
    · rw [hlen, List.range_succ, ← List.append_assoc]
      exact (h.sublist (hnot hd) (hnot hr)).append (.refl _)
    · rw [hlen, List.range_succ, ← List.append_assoc, h.complete fun fault => hnot (hf fault)]
  | @arrive flying a =>
    have hsame : allSent (events ++ [.arrived a]) = allSent events := by
      rw [allSent_concat]
      exact List.append_nil _
    obtain ⟨k, ks', hk, hks, rfl⟩ := List.forall₂_cons_right_iff.mp h.flying
    refine ⟨js ++ [k], ks', ?_, hkept hks, fun hd => ?_, fun hd hr => ?_, fun hf => ?_⟩
    · rw [allArrived_concat]
      exact List.rel_append (hkept h.arrived) (.cons (hk.concat _) .nil)
    · rw [List.append_assoc]
      exact h.nodup (hnot hd)
    · rw [hsame, List.append_assoc]
      exact h.sublist (hnot hd) (hnot hr)
    · rw [hsame, List.append_assoc]
      exact h.complete fun fault => hnot (hf fault)
  | @lose l r a =>
    obtain ⟨k1, k, k2, rfl, h1, -, h2⟩ := exists_split h.flying
    have hless : (js ++ (k1 ++ k2)).Sublist (js ++ (k1 ++ k :: k2)) :=
      (List.Sublist.refl js).append ((List.Sublist.refl k1).append (List.sublist_cons_self k k2))
    refine ⟨js, k1 ++ k2, h.arrived_fault lost, List.rel_append (hkept h1) (hkept h2),
      fun hd => (h.nodup (hnot hd)).sublist hless, fun hd hr => ?_, fun hf => absurd hself (hf lost)⟩
    rw [allSent_fault]
    exact hless.trans (h.sublist (hnot hd) (hnot hr))
  | @duplicate l r a =>
    obtain ⟨k1, k, k2, rfl, h1, hk, h2⟩ := exists_split h.flying
    have hk := hk.concat (.fault duplicated)
    exact ⟨js, k1 ++ k :: k :: k2, h.arrived_fault duplicated,
      List.rel_append (hkept h1) (.cons hk (.cons hk (hkept h2))), fun hd => absurd hself hd,
      fun hd => absurd hself hd, fun hf => absurd hself (hf duplicated)⟩
  | reorder perm =>
    obtain ⟨ks', hks', hperm⟩ := List.perm_comp_forall₂ perm.symm (List.Forall₂.flip (hkept h.flying))
    exact ⟨js, ks', h.arrived_fault reordered, List.Forall₂.flip hks',
      fun hd => (hperm.append_left js).nodup_iff.mpr (h.nodup (hnot hd)), fun _ hr => absurd hself hr,
      fun hf => absurd hself (hf reordered)⟩

/-- **A channel, from the start on**: what arrived has its numbers. -/
theorem exists_numbers (hpath : StepPath Step [] events flying) : ∃ js ks, Numbered events flying js ks := by
  have hrun : ∃ js ks, Numbered ([] ++ events) flying js ks := by
    refine hpath.invariant_prefix (I := fun events flying => ∃ js ks, Numbered events flying js ks) [] ?_
      ⟨[], [], .nil, .nil, fun _ => .nil, fun _ _ => .slnil, fun _ => rfl⟩
    rintro events flying event flying' ⟨js, ks, h⟩ hstep
    exact h.exists_step hstep
  exact hrun

/-- What arrives takes the place at the front. -/
theorem path_of_arrivals (as flying : List α) : StepPath Step (as ++ flying) (as.map .arrived) flying := by
  induction as with
  | nil => exact .nil _
  | cons a as ih => exact .cons .arrive ih

/-- What is sent goes to the end. -/
theorem path_of_sent (flying as : List α) : StepPath Step flying (as.map .sent) (flying ++ as) := by
  induction as generalizing flying with
  | nil =>
    rw [List.append_nil]
    exact .nil _
  | cons a as ih =>
    have hrest := ih (flying ++ [a])
    rw [List.append_assoc] at hrest
    exact .cons .send hrest

end Channel
