import SuperEthd.Carriers

/-! # A receiver of a stream

What a decoder is for, as a machine of its own: it is given datagrams of a stream by their
numbers, and takes up a frame that began before only if it was given all that went before
of it.  Given datagrams in order, with any of them missing, it delivers the frames of which
every datagram came (`Receiver.run_filter`); given them in any order, it delivers a frame
no more often than the datagram came that the frame ends in (`Receiver.count_run_le`). -/
namespace SuperEthd

variable {H : Type}

/-- The number of the datagram that would go on with the last one, whether the frame that is open
there came whole so far, and the frames delivered. -/
structure Receiver (H : Type) where
  expects : Option Nat
  synced : Bool
  frames : List (EncodedFrame H)

namespace Receiver

/-- A new receiver. -/
def new : Receiver H := ⟨none, false, []⟩

/-- It has what went before of the frame that is open where datagram `j` starts. -/
def goesOn (s : Receiver H) (j : Nat) : Bool := s.synced && s.expects == some j

/-- Datagram `j`, which starts at `c`. -/
def receive (s : Receiver H) (j : Nat) (c : Cursor H) (D : Datagram H) : Receiver H where
  expects := some (j + 1)
  synced := D.syncs c (s.goesOn j)
  frames := s.frames ++ D.received c (s.goesOn j)

/-- The datagrams with the given numbers, one after the other. -/
def run (ds : List (Datagram H)) (place : Nat → Cursor H × UInt32) (js : List Nat) : Receiver H :=
  js.foldl (fun s j => match ds[j]? with
    | some D => s.receive j (place j).1 D
    | none => s) new

variable {T : Tunnel H} {s0 : UInt32} {ds : List (Datagram H)} {place : Nat → Cursor H × UInt32}
  {D : Datagram H} {js : List Nat} {n m i j : Nat}

theorem run_concat (hD : ds[j]? = some D) :
    run ds place (js ++ [j]) = (run ds place js).receive j (place j).1 D := by
  rw [run, List.foldl_append, List.foldl_cons, List.foldl_nil, hD]
  rfl

/-- It expects the datagram behind the last one. -/
theorem expects_run (hjs : ∀ j ∈ js, j < ds.length) :
    (run ds place js).expects = js.getLast?.map (· + 1) := by
  induction js using List.reverseRecOn with
  | nil => rfl
  | append_singleton js j =>
    have hj : j < ds.length := hjs j (List.mem_append_right _ List.mem_cons_self)
    rw [run_concat (List.getElem?_eq_getElem hj), List.getLast?_concat]
    rfl

/-! ## In order, with losses -/

/-- Of the datagrams before number `n`, those that carry frame `m` are received. -/
def Came (received : Nat → Bool) (place : Nat → Cursor H × UInt32) (n m : Nat) : Prop :=
  ∀ i < n, (place i).1.index ≤ m → m < (place (i + 1)).1.started → received i = true

instance (received : Nat → Bool) (place : Nat → Cursor H × UInt32) (n m : Nat) :
    Decidable (Came received place n m) :=
  inferInstanceAs (Decidable (∀ i < n, _ → _ → _))

theorem came_succ {received : Nat → Bool} : Came received place (n + 1) m ↔
    Came received place n m ∧
      ((place n).1.index ≤ m → m < (place (n + 1)).1.started → received n = true) := by
  constructor
  · intro h
    exact ⟨fun i hi => h i (Nat.lt_succ_of_lt hi), h n (Nat.lt_succ_self n)⟩
  · rintro ⟨h, hn⟩ i hi
    rcases Nat.lt_succ_iff_lt_or_eq.mp hi with hi | rfl
    · exact h i hi
    · exact hn

/-- Of a frame that has not begun, nothing is missing. -/
theorem came_of_started_le {received : Nat → Bool} (h : Places T s0 ds place) (hn : n ≤ ds.length)
    (hm : (place n).1.started ≤ m) : Came received place n m := by
  intro i hi _ hlt
  have hle : (place (i + 1)).1.started ≤ (place n).1.started := h.started_le hi hn
  exact absurd hlt (Nat.not_lt.mpr (hle.trans hm))

variable {received : Nat → Bool} {s : Receiver H}

/-- The datagrams before number `n` that were received have been given to the receiver, in order. -/
structure Kept (received : Nat → Bool) (ds : List (Datagram H)) (place : Nat → Cursor H × UInt32)
    (n : Nat) (s : Receiver H) : Prop where
  frames : s.frames = (finished ((ds.take n).flatMap Datagram.records)).filter
    fun f => Came received place n f.index
  synced : (place n).1.index < (place n).1.started →
    (s.goesOn n = true ↔ Came received place n (place n).1.index)
  expects : ∀ j ∈ s.expects, j ≤ n

/-- The frames that ended before datagram `n` are as they were, and those that end in it are there if
all of their datagrams came. -/
theorem filter_take_succ (h : Places T s0 ds place) (hD : ds[n]? = some D) :
    (finished ((ds.take (n + 1)).flatMap Datagram.records)).filter
        (fun f => Came received place (n + 1) f.index) =
      (finished ((ds.take n).flatMap Datagram.records)).filter
          (fun f => Came received place n f.index) ++
        (finished D.records).filter fun f => Came received place n f.index ∧ received n = true := by
  have hlt := (List.getElem?_eq_some_iff.mp hD).1
  rw [List.take_add_one, hD, Option.toList_some, List.flatMap_append, List.flatMap_singleton,
    finished_append, List.filter_append]
  congr 1
  · refine List.filter_congr fun f hf => decide_eq_decide.mpr ?_
    have hmem := List.mem_map_of_mem (f := EncodedFrame.index) hf
    rw [h.finished_take hlt.le, List.mem_range] at hmem
    rw [came_succ]
    exact and_iff_left fun hle => absurd hmem (Nat.not_lt.mpr hle)
  · refine List.filter_congr fun f hf => decide_eq_decide.mpr ?_
    obtain ⟨h1, h2⟩ := (h.emits hD).index_of_finished hf
    have h3 := (place (n + 1)).1.index_le_started
    rw [came_succ]
    exact and_congr_right fun _ => ⟨fun h => h h1 (h2.trans_le h3), fun h _ _ => h⟩

/-- **A datagram that is received.** -/
theorem Kept.receive (hk : Kept received ds place n s) (h : Places T s0 ds place)
    (hD : ds[n]? = some D) (hr : received n = true) :
    Kept received ds place (n + 1) (s.receive n (place n).1 D) := by
  have hlt := (List.getElem?_eq_some_iff.mp hD).1
  have hemits := h.emits hD
  have hstart := (place n).1.started_le
  have hcame : ∀ m, (place n).1.index ≤ m →
      ((s.goesOn n || decide ((place n).1.started ≤ m)) = true ↔ Came received place n m) := by
    intro m hm
    rw [Bool.or_eq_true, decide_eq_true_iff]
    by_cases hbegan : (place n).1.started ≤ m
    · exact iff_of_true (Or.inr hbegan) (came_of_started_le h hlt.le hbegan)
    · obtain rfl : (place n).1.index = m := by omega
      rw [or_iff_left hbegan]
      exact hk.synced (Nat.not_le.mp hbegan)
  refine ⟨?_, fun hopen => ?_, fun j hj => ?_⟩
  · rw [filter_take_succ h hD, ← hk.frames]
    simp only [Receiver.receive, hemits.received_eq (h.cut hlt.le)]
    congr 1
    refine List.filter_congr fun f hf => ?_
    rw [Bool.eq_iff_iff, hcame _ (hemits.index_of_finished hf).1, decide_eq_true_iff]
    exact (and_iff_left hr).symm
  · have hgo : (s.receive n (place n).1 D).goesOn (n + 1) = D.syncs (place n).1 (s.goesOn n) := by
      simp [goesOn, Receiver.receive]
    rw [hgo, hemits.syncs_eq (h.cut hlt.le), hcame _ hemits.index_le, came_succ]
    exact (and_iff_left fun _ _ => hr).symm
  · obtain rfl := Option.some.inj hj
    exact Nat.le_refl _

/-- **A datagram that is missing.** -/
theorem Kept.miss (hk : Kept received ds place n s) (h : Places T s0 ds place)
    (hD : ds[n]? = some D) (hr : received n = false) : Kept received ds place (n + 1) s := by
  have hemits := h.emits hD
  refine ⟨?_, fun hopen => ?_, fun j hj => Nat.le_succ_of_le (hk.expects j hj)⟩
  · rw [filter_take_succ h hD, hk.frames, hr]
    simp
  · have hgo : ¬s.goesOn (n + 1) = true := by
      intro hgo
      rw [goesOn, Bool.and_eq_true, beq_iff_eq] at hgo
      have := hk.expects _ hgo.2
      omega
    refine iff_of_false hgo fun hcame => ?_
    have := (came_succ.mp hcame).2 hemits.index_le hopen
    rw [hr] at this
    exact absurd this Bool.false_ne_true

variable (received) in
/-- **Given the datagrams in order, with losses**, the receiver delivers the frames of which all
datagrams came. -/
theorem run_filter (h : Places T s0 ds place) (hn : n ≤ ds.length) :
    Kept received ds place n (run ds place ((List.range n).filter received)) := by
  induction n with
  | zero =>
    refine ⟨rfl, fun hlt => ?_, nofun⟩
    rw [h.zero] at hlt
    exact absurd hlt (Nat.lt_irrefl 0)
  | succ n ih =>
    have hD := List.getElem?_eq_getElem hn
    have hk := ih (Nat.le_of_succ_le hn)
    rw [List.range_succ, List.filter_append]
    cases hr : received n with
    | true =>
      rw [List.filter_cons_of_pos hr, List.filter_nil, run_concat hD]
      exact hk.receive h hD hr
    | false =>
      rw [List.filter_cons_of_neg (Bool.eq_false_iff.mp hr), List.filter_nil, List.append_nil]
      exact hk.miss h hD hr

/-- When none is missing, all frames that end are delivered. -/
theorem run_range (h : Places T s0 ds place) :
    (run ds place (List.range ds.length)).frames = finished (ds.flatMap Datagram.records) := by
  have hframes := (run_filter (fun _ => true) h (Nat.le_refl ds.length)).frames
  rw [List.filter_eq_self.mpr fun _ _ => rfl, List.take_length] at hframes
  rw [hframes]
  exact List.filter_eq_self.mpr fun f _ => decide_eq_true fun _ _ _ _ => rfl

/-! ## In any order -/

/-- Every frame is one that ends in a datagram which came. -/
theorem exists_of_mem_run {f : EncodedFrame H} (h : Places T s0 ds place)
    (hjs : ∀ j ∈ js, j < ds.length) (hf : f ∈ (run ds place js).frames) :
    ∃ (j : Nat) (D : Datagram H), ds[j]? = some D ∧ f ∈ finished D.records := by
  induction js using List.reverseRecOn with
  | nil => exact absurd hf List.not_mem_nil
  | append_singleton js j ih =>
    have hD := List.getElem?_eq_getElem (hjs j (List.mem_append_right _ List.mem_cons_self))
    rw [run_concat hD] at hf
    rcases List.mem_append.mp hf with hf | hf
    · exact ih (fun j hj => hjs j (List.mem_append_left _ hj)) hf
    · rw [(h.emits hD).received_eq (h.cut (List.getElem?_eq_some_iff.mp hD).1.le)] at hf
      exact ⟨j, _, hD, (List.mem_filter.mp hf).1⟩

/-- **A frame is delivered no more often** than the datagram came that it ends in. -/
theorem count_run_le (h : Places T s0 ds place) (hjs : ∀ j ∈ js, j < ds.length)
    (hi : i < ds.length)
    (hm : ∀ j < ds.length, (place j).1.index ≤ m → m < (place (j + 1)).1.index → j = i) :
    (((run ds place js).frames.map EncodedFrame.index).count m) ≤ js.count i := by
  induction js using List.reverseRecOn with
  | nil => exact Nat.le_refl _
  | append_singleton js j ih =>
    have hj : j < ds.length := hjs j (List.mem_append_right _ List.mem_cons_self)
    have hD := List.getElem?_eq_getElem hj
    have hemits := h.emits hD
    have ih := ih fun j hj => hjs j (List.mem_append_left _ hj)
    -- what the datagram adds
    have hsub : (((ds[j]).received (place j).1 ((run ds place js).goesOn j)).map
        EncodedFrame.index).Sublist ((finished (ds[j]).records).map EncodedFrame.index) := by
      rw [hemits.received_eq (h.cut hj.le)]
      exact List.filter_sublist.map _
    rw [run_concat hD, List.count_append, Receiver.receive, List.map_append, List.count_append]
    by_cases hmem : m ∈ (finished (ds[j]).records).map EncodedFrame.index
    · obtain ⟨f, hf, rfl⟩ := List.mem_map.mp hmem
      obtain ⟨h1, h2⟩ := hemits.index_of_finished hf
      obtain rfl := hm j hj h1 h2
      have hone := (hsub.count_le f.index).trans (List.nodup_iff_count_le_one.mp hemits.nodup _)
      rw [List.count_singleton_self]
      exact Nat.add_le_add ih hone
    · have hzero : (((ds[j]).received (place j).1 ((run ds place js).goesOn j)).map
          EncodedFrame.index).count m = 0 := by
        have := hsub.count_le m
        rw [List.count_eq_zero_of_not_mem hmem] at this
        exact Nat.le_zero.mp this
      omega

end Receiver
end SuperEthd
