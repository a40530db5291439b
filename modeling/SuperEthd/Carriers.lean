import SuperEthd.EncoderStream
import SuperEthd.Reception

/-! # Which datagrams carry a frame

A stream of datagrams is numbered from 0 on, and so are its frames.  At the place where a
datagram starts, `index` frames have ended and `started` have begun, which differ by at most
one; a frame is carried from the datagram that it begins in to the one it ends in
(`Emits.carries_iff`).  What a decoder gets from a datagram follows from the same two
numbers (`Emits.received_eq`, `Emits.syncs_eq`). -/
namespace SuperEthd
open PacketHeaderOptionType PacketHeaderOptionFormatType

variable {H : Type} {T : Tunnel H} {c c' : Cursor H} {r : Record H} {rs : List (Record H)}
  {D : Datagram H} {m : Nat}

namespace Cursor

/-- The number of frames that begin before it. -/
def started : Cursor H → Nat
  | between n _ => n
  | full f _ _ | inside f _ _ => f.index + 1

theorem index_le_started (c : Cursor H) : c.index ≤ c.started := by
  cases c with
  | between => exact Nat.le_refl _
  | full => exact Nat.le_succ _
  | inside => exact Nat.le_succ _

theorem started_le (c : Cursor H) : c.started ≤ c.index + 1 := by
  cases c with
  | between => exact Nat.le_succ _
  | full => exact Nat.le_refl _
  | inside => exact Nat.le_refl _

@[simp] theorem started_cut (T : Tunnel H) (c : Cursor H) : (c.cut T).started = c.started := by
  cases c <;> rfl

end Cursor

/-! ## Along one datagram -/

theorem Follows.started_eq (h : Follows T c r c') : c'.started = c.index + 1 := by
  cases h <;> rfl

theorem index_le_of_path (h : StepPath (Follows T) c rs c') : c.index ≤ c'.index := by
  have := (finished_index h).2
  omega

theorem started_le_of_path (h : StepPath (Follows T) c rs c') : c.started ≤ c'.started := by
  induction h with
  | nil => exact Nat.le_refl _
  | @cons c c1 c' r rs h _ ih =>
    have h1 := h.started_eq
    have h2 := c.started_le
    omega

/-- The records between two places are of the frames that lie between them. -/
theorem index_of_path (h : StepPath (Follows T) c rs c') (hr : r ∈ rs) :
    c.index ≤ r.of.index ∧ r.of.index < c'.started := by
  induction h with
  | nil => exact absurd hr List.not_mem_nil
  | @cons c c1 c' r1 rs h hpath ih =>
    have h1 := h.started_eq
    have h2 := h.index_eq
    have h3 := started_le_of_path hpath
    rcases List.mem_cons.mp hr with rfl | hr
    · omega
    · have := ih hr
      omega

/-- Each of those frames has a record. -/
theorem exists_record_of_path (h : StepPath (Follows T) c rs c') (hne : rs ≠ [])
    (h1 : c.index ≤ m) (h2 : m < c'.started) : ∃ r ∈ rs, r.of.index = m := by
  induction h with
  | nil => exact absurd rfl hne
  | @cons c c1 c' r rs h hpath ih =>
    obtain ⟨hr, hc1⟩ := h.index_eq
    by_cases hm : m = c.index
    · exact ⟨r, List.mem_cons_self, hr.trans hm.symm⟩
    · have hfin : (finished [r]).length ≤ 1 := by
        rw [finished, List.length_map]
        exact List.length_filter_le _ _
      have hrs : rs ≠ [] := by
        rintro rfl
        obtain rfl := StepPath.nil_iff.mp hpath
        have := h.started_eq
        omega
      obtain ⟨r', hr', hindex⟩ := ih hrs (by omega) h2
      exact ⟨r', List.mem_cons_of_mem _ hr', hindex⟩

/-- A frame that ends in the records ends between the two places. -/
theorem index_of_finished {f : EncodedFrame H} (h : StepPath (Follows T) c rs c')
    (hf : f ∈ finished rs) : c.index ≤ f.index ∧ f.index < c'.index := by
  obtain ⟨h1, h2⟩ := finished_index h
  have hmem := List.mem_map_of_mem (f := EncodedFrame.index) hf
  rw [h1, List.mem_range'_1] at hmem
  omega

/-- A part that leads on is numbered from 1 to 255, and no record leads to the inside of a frame. -/
theorem part_of_path (h : StepPath (Follows T) c rs c') (hne : rs ≠ []) :
    ∀ f k off, (c' = .full f k off → 0 < k ∧ k ≤ 255) ∧ c' ≠ .inside f k off := by
  intro f k off
  rcases List.eq_nil_or_concat rs with rfl | ⟨rs, r, rfl⟩
  · exact absurd rfl hne
  · rw [List.concat_eq_append] at h
    obtain ⟨c1, -, hr⟩ := StepPath.concat_iff.mp h
    cases hr with
    | whole => exact ⟨nofun, nofun⟩
    | first =>
      refine ⟨?_, nofun⟩
      rintro ⟨⟩
      exact ⟨Nat.one_pos, by decide⟩
    | next fits hf hk hk' =>
      refine ⟨?_, nofun⟩
      rintro ⟨⟩
      exact ⟨Nat.succ_pos _, hk'⟩
    | last => exact ⟨nofun, nofun⟩

namespace Emits

theorem index_le (h : Emits T c D c') : c.index ≤ c'.index := by
  obtain ⟨c1, hpath, rfl, -⟩ := h.path
  rw [Cursor.index_cut]
  exact index_le_of_path hpath

theorem started_le (h : Emits T c D c') : c.started ≤ c'.started := by
  obtain ⟨c1, hpath, rfl, -⟩ := h.path
  rw [Cursor.started_cut]
  exact started_le_of_path hpath

/-- **A datagram carries the frames** that lie between its two ends. -/
theorem carries_iff (h : Emits T c D c') : D.Carries m ↔ c.index ≤ m ∧ m < c'.started := by
  obtain ⟨c1, hpath, rfl, -⟩ := h.path
  rw [Cursor.started_cut]
  constructor
  · rintro ⟨r, hr, rfl⟩
    exact index_of_path hpath hr
  · rintro ⟨h1, h2⟩
    exact exists_record_of_path hpath h.nonempty h1 h2

theorem index_of_finished {f : EncodedFrame H} (h : Emits T c D c') (hf : f ∈ finished D.records) :
    c.index ≤ f.index ∧ f.index < c'.index := by
  obtain ⟨c1, hpath, rfl, -⟩ := h.path
  rw [Cursor.index_cut]
  exact SuperEthd.index_of_finished hpath hf

/-- No frame ends twice in it. -/
theorem nodup (h : Emits T c D c') : ((finished D.records).map EncodedFrame.index).Nodup := by
  obtain ⟨c1, hpath, -⟩ := h.path
  rw [(finished_index hpath).1]
  exact List.nodup_range'

/-- The next datagram does not start behind 0 parts, nor behind 256. -/
theorem part_of_inside {f : EncodedFrame H} {k off : Nat} (h : Emits T c D (.inside f k off)) :
    0 < k ∧ k ≤ 255 := by
  obtain ⟨c1, hpath, hcut, -⟩ := h.path
  have hpart := part_of_path hpath h.nonempty f k off
  cases c1 with
  | between => cases hcut
  | full f' k' off' =>
    obtain ⟨rfl, rfl, rfl⟩ := Cursor.inside.inj hcut
    exact hpart.1 rfl
  | inside f' k' off' =>
    obtain ⟨rfl, rfl, rfl⟩ := Cursor.inside.inj hcut
    exact absurd rfl hpart.2

/-- The frames that a decoder misses when it is not synced: those that began before. -/
theorem received_eq (h : Emits T c D c') (hcut : c.cut T = c) (synced : Bool) :
    D.received c synced =
      (finished D.records).filter fun f => synced || decide (c.started ≤ f.index) := by
  obtain ⟨c1, hpath, -, -⟩ := h.path
  have hall : (∀ f ∈ finished D.records, (synced || decide (c.started ≤ f.index)) = true) →
      finished D.records =
        (finished D.records).filter fun f => synced || decide (c.started ≤ f.index) :=
    fun hall => (List.filter_eq_self.mpr hall).symm
  cases c with
  | between n history =>
    have heq : D.received (.between n history) synced = finished D.records := by cases synced <;> rfl
    refine heq.trans (hall fun f hf => ?_)
    rw [Bool.or_eq_true, decide_eq_true_iff]
    exact Or.inr (SuperEthd.index_of_finished hpath hf).1
  | full => exact absurd hcut nofun
  | inside g k off =>
    cases synced with
    | true => exact hall fun _ _ => rfl
    | false =>
      obtain ⟨r, rs, hrs⟩ := List.exists_cons_of_ne_nil h.nonempty
      rw [hrs] at hpath
      obtain ⟨c2, hr, hpath⟩ := StepPath.cons_iff.mp hpath
      simp only [Datagram.received, hrs, List.tail_cons, Bool.false_or]
      cases hr with
      | @next _ _ _ len fits hf hk hk' h0 hlt =>
        -- the part fills the datagram
        obtain ⟨rfl, -⟩ := PacketDecoder.path_full hpath
        have hfin : Record.finishes (Record.mk g (k + 1) off len fits) = false := by
          simp [Record.finishes]
          omega
        rw [finished_cons_of_not _ hfin]
        rfl
      | @last _ _ _ len fits hf hk hk' h0 hend =>
        have hfin : Record.finishes (Record.mk g (k + 1) off len fits) = true := by
          simp [Record.finishes]
          omega
        have hbegan : decide ((Cursor.inside g k off).started ≤ g.index) = false :=
          decide_eq_false (Nat.not_succ_le_self g.index)
        simp only [finished_cons_of_finishes _ hfin, List.filter_cons, hbegan, Bool.false_eq_true,
          if_false]
        refine (List.filter_eq_self.mpr fun f hf => decide_eq_true ?_).symm
        exact (SuperEthd.index_of_finished hpath hf).1

/-- Behind the end of the frame that it began before, a decoder is synced. -/
theorem syncs_eq (h : Emits T c D c') (hcut : c.cut T = c) (synced : Bool) :
    D.syncs c synced = (synced || decide (c.started ≤ c'.index)) := by
  obtain ⟨c1, hpath, rfl, -⟩ := h.path
  rw [Cursor.index_cut]
  cases c with
  | between n history =>
    have hle : n ≤ c1.index := index_le_of_path hpath
    have heq : D.syncs (.between n history) synced = true := by cases synced <;> rfl
    rw [heq, Cursor.started, decide_eq_true hle, Bool.or_true]
  | full => exact absurd hcut nofun
  | inside g k off =>
    cases synced with
    | true => rfl
    | false =>
      obtain ⟨r, rs, hrs⟩ := List.exists_cons_of_ne_nil h.nonempty
      rw [hrs] at hpath
      obtain ⟨c2, hr, hpath⟩ := StepPath.cons_iff.mp hpath
      simp only [Datagram.syncs, hrs, List.head?_cons, Option.any_some, Bool.false_or]
      cases hr with
      | @next _ _ _ len fits hf hk hk' h0 hlt =>
        obtain ⟨-, rfl⟩ := PacketDecoder.path_full hpath
        have hbegan : decide ((Cursor.inside g k off).started ≤ g.index) = false :=
          decide_eq_false (Nat.not_succ_le_self g.index)
        exact (beq_eq_false_iff_ne.mpr hlt.ne).trans hbegan.symm
      | @last _ _ _ len fits hf hk hk' h0 hend =>
        have hle : (Cursor.inside g k off).started ≤ c1.index := index_le_of_path hpath
        exact (beq_iff_eq.mpr hend).trans (decide_eq_true hle).symm

end Emits

/-! ## Along a stream -/

/-- **The places of a stream**: where each of its datagrams starts, with the counter there. -/
structure Places (T : Tunnel H) (s0 : UInt32) (ds : List (Datagram H))
    (place : Nat → Cursor H × UInt32) : Prop where
  zero : place 0 = (.between 0 T.lib.reset, s0)
  sends : ∀ i D, ds[i]? = some D → Sends T (place i) D (place (i + 1))

theorem exists_places {s0 : UInt32} {ds : List (Datagram H)} {s : Cursor H × UInt32}
    (h : StepPath (Sends T) (.between 0 T.lib.reset, s0) ds s) :
    ∃ place, Places T s0 ds place ∧ place ds.length = s := by
  obtain ⟨place, h0, hend, hsends⟩ := h.exists_trace
  exact ⟨place, ⟨h0, hsends⟩, hend⟩

namespace Places
variable {s0 : UInt32} {ds : List (Datagram H)} {place : Nat → Cursor H × UInt32} {i j : Nat}

theorem emits (h : Places T s0 ds place) (hD : ds[i]? = some D) :
    Emits T (place i).1 D (place (i + 1)).1 :=
  (h.sends i D hD).emits

/-- Each place is where a datagram starts. -/
theorem cut (h : Places T s0 ds place) (hi : i ≤ ds.length) : (place i).1.cut T = (place i).1 := by
  cases i with
  | zero =>
    rw [h.zero]
    rfl
  | succ i =>
    obtain ⟨c1, -, hcut, -⟩ := (h.emits (List.getElem?_eq_getElem hi)).path
    rw [hcut, Cursor.cut_cut]

/-- What grows with every datagram grows along the stream. -/
theorem le_of_le {n : Cursor H → Nat} (h : Places T s0 ds place)
    (step : ∀ c D c', Emits T c D c' → n c ≤ n c') (hij : i ≤ j) (hj : j ≤ ds.length) :
    n (place i).1 ≤ n (place j).1 := by
  induction hij with
  | refl => exact Nat.le_refl _
  | @step j hij ih =>
    exact (ih (Nat.le_of_succ_le hj)).trans (step _ _ _ (h.emits (List.getElem?_eq_getElem hj)))

theorem index_le (h : Places T s0 ds place) (hij : i ≤ j) (hj : j ≤ ds.length) :
    (place i).1.index ≤ (place j).1.index :=
  h.le_of_le (fun _ _ _ h => h.index_le) hij hj

theorem started_le (h : Places T s0 ds place) (hij : i ≤ j) (hj : j ≤ ds.length) :
    (place i).1.started ≤ (place j).1.started :=
  h.le_of_le (fun _ _ _ h => h.started_le) hij hj

/-- The frames that end in the first datagrams. -/
theorem finished_take (h : Places T s0 ds place) (hi : i ≤ ds.length) :
    (finished ((ds.take i).flatMap Datagram.records)).map EncodedFrame.index =
      List.range (place i).1.index := by
  induction i with
  | zero =>
    rw [h.zero]
    rfl
  | succ i ih =>
    have hD := List.getElem?_eq_getElem hi
    obtain ⟨c1, hpath, hcut, -⟩ := (h.emits hD).path
    obtain ⟨h1, h2⟩ := finished_index hpath
    rw [List.take_add_one, hD, Option.toList_some, List.flatMap_append, List.flatMap_singleton,
      finished_append, List.map_append, ih (Nat.le_of_succ_le hi), h1, hcut, Cursor.index_cut, h2,
      List.range_eq_range', List.range_eq_range', ← List.range'_append_1, Nat.zero_add]

end Places

/-! ## What the encoder recorded -/

theorem mem_carriersOf {rss : List (List (Record H))} {i : Nat} :
    (m, i) ∈ PacketEncoder.carriersOf rss ↔ ∃ rs, rss[i]? = some rs ∧ ∃ r ∈ rs, r.of.index = m := by
  simp only [PacketEncoder.carriersOf, List.mem_flatMap, List.mem_map, Prod.exists,
    List.mem_zipIdx_iff_getElem?, Prod.mk.injEq]
  constructor
  · rintro ⟨rs, j, hj, r, hr, rfl, rfl⟩
    exact ⟨rs, hj, r, hr, rfl⟩
  · rintro ⟨rs, hi, r, hr, rfl⟩
    exact ⟨rs, i, hi, r, hr, rfl, rfl⟩

namespace PacketEncoder.Emitted
variable {s0 : UInt32} {ds : List (Datagram H)} {pending : List (Record H)} {c0 : Cursor H}
  {e : PacketEncoder H T.B} {place : Nat → Cursor H × UInt32} {i : Nat}

/-- The TX pool holds as many datagrams as were sent. -/
theorem pool_length (hem : Emitted T s0 ds pending c0 c e) :
    e.tx_buffer_pool.pool.length = ds.length := by
  have := congrArg List.length hem.pool
  rwa [List.length_map, List.length_map] at this

/-- The frames that end in the stream are numbered from 0 on. -/
theorem finished_index (hem : Emitted T s0 ds pending c0 c e) (h : Places T s0 ds place)
    (hend : place ds.length = (c0, e.sequence)) :
    (finished (ds.flatMap Datagram.records ++ pending)).map EncodedFrame.index =
      List.range (finished (ds.flatMap Datagram.records ++ pending)).length := by
  have hsent := h.finished_take (Nat.le_refl _)
  have hlen := congrArg List.length hsent
  rw [List.take_length, List.length_map, List.length_range] at hlen
  rw [List.take_length] at hsent
  rw [finished_append, List.map_append, hsent, (SuperEthd.finished_index hem.laid).1, hend,
    List.length_append, hlen, hend, List.range_eq_range', List.range_eq_range',
    ← List.range'_append_1, Nat.zero_add]

/-- **The accepted frames**, with their numbers, are those that end in the stream. -/
theorem zipIdx_accepted (hem : Emitted T s0 ds pending c0 c e) (h : Places T s0 ds place)
    (hend : place ds.length = (c0, e.sequence))
    (hacc : (finished (ds.flatMap Datagram.records ++ pending)).map EncodedFrame.frame = e.accepted) :
    e.accepted.zipIdx = (finished (ds.flatMap Datagram.records ++ pending)).map
      fun f => (f.frame, f.index) := by
  rw [← hacc, List.zipIdx_eq_zip_range', List.length_map, ← List.range_eq_range',
    ← hem.finished_index h hend, List.zip_map']

/-- The datagrams that were sent are recorded as carriers of the frames between their ends. -/
theorem mem_carriers_iff (hem : Emitted T s0 ds pending c0 c e) (h : Places T s0 ds place)
    (hi : i < ds.length) :
    (m, i) ∈ e.carriers ↔ (place i).1.index ≤ m ∧ m < (place (i + 1)).1.started := by
  have hD := List.getElem?_eq_getElem hi
  rw [← (h.emits hD).carries_iff, hem.carriers, mem_carriersOf,
    List.getElem?_append_left (by rwa [List.length_map]), List.getElem?_map, hD]
  constructor
  · rintro ⟨rs, ⟨⟩, hr⟩
    exact hr
  · intro hr
    exact ⟨_, rfl, hr⟩

/-- No other datagrams are, but the one in `tx_buffer`. -/
theorem of_mem_carriers (hem : Emitted T s0 ds pending c0 c e) (h : Places T s0 ds place)
    (hend : place ds.length = (c0, e.sequence)) (hm : (m, i) ∈ e.carriers) :
    i ≤ ds.length ∧ (place i).1.index ≤ m := by
  by_cases hi : i < ds.length
  · exact ⟨hi.le, ((hem.mem_carriers_iff h hi).mp hm).1⟩
  · rw [hem.carriers, mem_carriersOf] at hm
    obtain ⟨rs, hrs, r, hr, rfl⟩ := hm
    have hlen := (List.getElem?_eq_some_iff.mp hrs).1
    rw [List.length_append, List.length_map, List.length_singleton] at hlen
    obtain rfl : i = ds.length := by omega
    rw [List.getElem?_append_right (by rw [List.length_map]), List.length_map, Nat.sub_self] at hrs
    obtain rfl := Option.some.inj hrs
    rw [hend]
    exact ⟨Nat.le_refl _, (index_of_path hem.laid hr).1⟩

/-- A frame that ends in `tx_buffer` has a record there. -/
theorem mem_carriers_of_pending {f : EncodedFrame H} (hem : Emitted T s0 ds pending c0 c e)
    (hf : f ∈ finished pending) : (f.index, ds.length) ∈ e.carriers := by
  obtain ⟨r, hr, rfl⟩ := List.mem_map.mp hf
  rw [hem.carriers, mem_carriersOf]
  refine ⟨pending, ?_, r, (List.mem_filter.mp hr).1, rfl⟩
  rw [← List.length_map (f := Datagram.records), List.getElem?_concat_length]

end PacketEncoder.Emitted
end SuperEthd
