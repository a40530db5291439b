import SuperEthd.Segmentation

/-! # How the frames of a stream are cut

`Segmentation` says which record may stand at which place.  Here the records of a stream are
grouped by frame: each frame has one record, or parts in consecutive datagrams
(`Segmented`). -/
namespace SuperEthd

variable {H : Type}

/-- The records of the datagrams, each with the number of its datagram. -/
def placed (rss : List (List (Record H))) : List (Nat × Record H) :=
  rss.zipIdx.flatMap fun (rs, i) => rs.map (i, ·)

theorem placed_concat (rss : List (List (Record H))) (rs : List (Record H)) :
    placed (rss ++ [rs]) = placed rss ++ rs.map (rss.length, ·) := by
  simp [placed, List.zipIdx_append]

variable (T : Tunnel H) (rss : List (List (Record H))) (f : EncodedFrame H)

/-- The record is the last of its datagram, and ends exactly at `l4mtu`. -/
def EndsFull (p : Nat × Record H) : Prop :=
  ∃ rs, rss[p.1]? = some rs ∧ rs.getLast? = some p.2 ∧
    PacketHeader.size + sizeOfRecords rs = T.l4mtu

/-- **The first parts of a frame**, `n` of them with `off` bytes: non-empty, numbered from 1 on, in
consecutive datagrams from number `first` on, all of which they fill, and none of them marked
as the last. -/
structure FirstParts (first n off : Nat) (seg : List (Nat × Record H)) : Prop where
  datagrams : seg.map Prod.fst = List.range' first n
  parts : seg.map (fun p => p.2.part) = List.range' 1 n
  marks : seg.map (fun p => p.2.finishes) = List.replicate n false
  records : ∀ p ∈ seg, p.2.of = f ∧ 0 < p.2.length
  full : ∀ p ∈ seg, EndsFull T rss p
  payload : seg.flatMap (fun p => p.2.payload) = f.bytes.take off

/-- **A frame in parts**: `n ≥ 2` of them, non-empty, numbered 1 to `n`, in consecutive datagrams;
all but the last end at `l4mtu`, only the last is marked, and their payloads are the encoding. -/
structure InParts (n : Nat) (seg : List (Nat × Record H)) : Prop where
  two_le : 2 ≤ n
  le : n ≤ 255
  datagrams : ∃ first, seg.map Prod.fst = List.range' first n
  parts : seg.map (fun p => p.2.part) = List.range' 1 n
  marks : seg.map (fun p => p.2.finishes) = List.replicate (n - 1) false ++ [true]
  records : ∀ p ∈ seg, p.2.of = f ∧ 0 < p.2.length
  full : ∀ p ∈ seg.dropLast, EndsFull T rss p
  payload : seg.flatMap (fun p => p.2.payload) = f.bytes

/-- **The records of one frame**: a single one, or parts. -/
def Segmented (seg : List (Nat × Record H)) : Prop :=
  f.Valid T ∧ ((∃ i, seg = [(i, .whole f)]) ∨ ∃ n, InParts T rss f n seg)

variable {T rss f}

theorem EndsFull.append {p : Nat × Record H} (h : EndsFull T rss p) (rss' : List (List (Record H))) :
    EndsFull T (rss ++ rss') p := by
  obtain ⟨rs, h1, h2, h3⟩ := h
  have hlt := (List.getElem?_eq_some_iff.mp h1).1
  exact ⟨rs, by rwa [List.getElem?_append_left hlt], h2, h3⟩

theorem Segmented.append {seg : List (Nat × Record H)} (h : Segmented T rss f seg)
    (rss' : List (List (Record H))) : Segmented T (rss ++ rss') f seg := by
  refine ⟨h.1, h.2.imp_right ?_⟩
  rintro ⟨n, h⟩
  exact ⟨n, { h with full := fun p hp => (h.full p hp).append rss' }⟩

namespace FirstParts
variable {first n off : Nat} {seg : List (Nat × Record H)} {r : Record H}

theorem nil (first : Nat) : FirstParts T rss f first 0 0 [] :=
  ⟨rfl, rfl, rfl, fun _ h => absurd h List.not_mem_nil, fun _ h => absurd h List.not_mem_nil, rfl⟩

theorem append (h : FirstParts T rss f first n off seg) (rss' : List (List (Record H))) :
    FirstParts T (rss ++ rss') f first n off seg :=
  { h with full := fun p hp => (h.full p hp).append rss' }

/-- The payload of the next record continues the encoding. -/
theorem payload_concat (h : FirstParts T rss f first n off seg) (hr : r.of = f)
    (hoff : r.offset = off) (i : Nat) :
    (seg ++ [(i, r)]).flatMap (fun p => p.2.payload) = f.bytes.take (off + r.length) := by
  rw [List.flatMap_append, h.payload, List.flatMap_singleton, Record.payload, hr, hoff,
    List.take_add]

/-- One more part, which fills its datagram. -/
theorem concat (h : FirstParts T rss f first n off seg) (hr : r.of = f) (hpart : r.part = n + 1)
    (hoff : r.offset = off) (h0 : 0 < r.length) (hfin : r.finishes = false)
    (hfull : EndsFull T rss (first + n, r)) :
    FirstParts T rss f first (n + 1) (off + r.length) (seg ++ [(first + n, r)]) where
  datagrams := by rw [List.map_append, h.datagrams, List.range'_1_concat]; rfl
  parts := by
    rw [List.map_append, h.parts, List.range'_1_concat, List.map_singleton, hpart, Nat.add_comm]
  marks := by rw [List.map_append, h.marks, List.map_singleton, hfin, List.replicate_succ']
  records p hp := by
    rcases List.mem_append.mp hp with hp | hp
    · exact h.records p hp
    · obtain rfl := List.mem_singleton.mp hp
      exact ⟨hr, h0⟩
  full p hp := by
    rcases List.mem_append.mp hp with hp | hp
    · exact h.full p hp
    · obtain rfl := List.mem_singleton.mp hp
      exact hfull
  payload := h.payload_concat hr hoff _

/-- The last part ends the frame. -/
theorem last (h : FirstParts T rss f first n off seg) (hn : 0 < n) (hle : n < 255) (hr : r.of = f)
    (hpart : r.part = n + 1) (hoff : r.offset = off) (h0 : 0 < r.length)
    (hend : off + r.length = f.bytes.length) :
    InParts T rss f (n + 1) (seg ++ [(first + n, r)]) where
  two_le := Nat.succ_le_succ hn
  le := hle
  datagrams := ⟨first, by rw [List.map_append, h.datagrams, List.range'_1_concat]; rfl⟩
  parts := by
    rw [List.map_append, h.parts, List.range'_1_concat, List.map_singleton, hpart, Nat.add_comm]
  marks := by
    have hfin : r.finishes = true := by simp [Record.finishes, hr, hoff, hend]
    rw [List.map_append, h.marks, List.map_singleton, hfin, Nat.add_sub_cancel]
  records p hp := by
    rcases List.mem_append.mp hp with hp | hp
    · exact h.records p hp
    · obtain rfl := List.mem_singleton.mp hp
      exact ⟨hr, h0⟩
  full p hp := by
    rw [List.dropLast_concat] at hp
    exact h.full p hp
  payload := by rw [h.payload_concat hr hoff, hend, List.take_length]

end FirstParts

/-! ## Along a stream -/

/-- The records of the frame that is open at a cursor in the datagram numbered `rss.length`, of
which `rs` have been laid down. -/
def OpenParts (T : Tunnel H) (rss : List (List (Record H))) (rs : List (Record H)) :
    Cursor H → List (Nat × Record H) → Prop
  | .between _ _, seg => seg = []
  | .inside f n off, seg => rs = [] ∧ ∃ first, first + n = rss.length ∧
      FirstParts T rss f first n off seg
  | .full f n off, seg => ∃ first k r seg0, seg = seg0 ++ [(rss.length, r)] ∧
      first + k = rss.length ∧ n = k + 1 ∧ off = r.offset + r.length ∧ rs.getLast? = some r ∧
      r.of = f ∧ r.part = n ∧ 0 < r.length ∧ r.finishes = false ∧
      FirstParts T rss f first k r.offset seg0

/-- The records so far are those of the frames that ended, then those of the open one. -/
def Grouped (T : Tunnel H) (rss : List (List (Record H))) (rs : List (Record H)) (c : Cursor H) :
    Prop :=
  ∃ segs seg, placed (rss ++ [rs]) = segs.flatten ++ seg ∧ OpenParts T rss rs c seg ∧
    List.Forall₂ (Segmented T rss) (finished (rss.flatten ++ rs)) segs

/-- **One record** keeps the grouping. -/
theorem Grouped.follows {c c' : Cursor H} {rs : List (Record H)} {r : Record H}
    (h : Grouped T rss rs c) (hr : Follows T c r c') : Grouped T rss (rs ++ [r]) c' := by
  obtain ⟨segs, seg, hplaced, hopen, hsegs⟩ := h
  have hplaced' : placed (rss ++ [rs ++ [r]]) = segs.flatten ++ seg ++ [(rss.length, r)] := by
    rw [placed_concat, List.map_append, ← List.append_assoc, ← placed_concat, hplaced]
    rfl
  have hfinished : finished (rss.flatten ++ (rs ++ [r])) =
      finished (rss.flatten ++ rs) ++ finished [r] := by
    rw [← List.append_assoc, finished_append]
  cases hr with
  | @whole f hf =>
    obtain rfl : seg = [] := hopen
    refine ⟨segs ++ [[(rss.length, .whole f)]], [], ?_, rfl, ?_⟩
    · simpa using hplaced'
    · rw [hfinished, finished_cons_of_finishes _ (Record.finishes_whole f)]
      exact List.rel_append hsegs (.cons ⟨hf, Or.inl ⟨_, rfl⟩⟩ .nil)
  | @first f len fits hf h0 h1 =>
    obtain rfl : seg = [] := hopen
    have hfin : Record.finishes (Record.mk f 1 0 len fits) = false := by
      simp [Record.finishes]
      omega
    refine ⟨segs, [(rss.length, ⟨f, 1, 0, len, fits⟩)], by simpa using hplaced',
      ⟨rss.length, 0, _, [], rfl, rfl, rfl, (Nat.zero_add _).symm, List.getLast?_concat .., rfl, rfl,
        h0, hfin, .nil _⟩, ?_⟩
    rw [hfinished, finished_cons_of_not _ hfin, finished_nil, List.append_nil]
    exact hsegs
  | @next f k off len fits hf hk hk' h0 h1 =>
    obtain ⟨rfl, first, hfirst, hparts⟩ := hopen
    have hfin : Record.finishes (Record.mk f (k + 1) off len fits) = false := by
      simp [Record.finishes]
      omega
    refine ⟨segs, seg ++ [(rss.length, ⟨f, k + 1, off, len, fits⟩)], by simpa using hplaced',
      ⟨first, k, _, seg, rfl, hfirst, rfl, rfl, List.getLast?_concat .., rfl, rfl, h0, hfin,
        hparts⟩, ?_⟩
    rw [hfinished, finished_cons_of_not _ hfin, finished_nil, List.append_nil]
    exact hsegs
  | @last f k off len fits hf hk hk' h0 h1 =>
    obtain ⟨rfl, first, hfirst, hparts⟩ := hopen
    have hfin : Record.finishes (Record.mk f (k + 1) off len fits) = true := by
      simp [Record.finishes]
      omega
    refine ⟨segs ++ [seg ++ [(rss.length, ⟨f, k + 1, off, len, fits⟩)]], [], by simpa using hplaced',
      rfl, ?_⟩
    rw [hfinished, finished_cons_of_finishes _ hfin]
    have hlast := hparts.last (r := ⟨f, k + 1, off, len, fits⟩) hk hk' rfl rfl rfl h0 h1
    rw [hfirst] at hlast
    exact List.rel_append hsegs (.cons ⟨hf, Or.inr ⟨_, hlast⟩⟩ .nil)

/-- **Sending the datagram** keeps the grouping. -/
theorem Grouped.cut {c : Cursor H} {rs : List (Record H)} (h : Grouped T rss rs c)
    (hfull : ∀ f k off, c = .full f k off → PacketHeader.size + sizeOfRecords rs = T.l4mtu)
    (hne : rs ≠ []) : Grouped T (rss ++ [rs]) [] (c.cut T) := by
  obtain ⟨segs, seg, hplaced, hopen, hsegs⟩ := h
  refine ⟨segs, seg, ?_, ?_, ?_⟩
  · rw [placed_concat, hplaced, List.map_nil, List.append_nil]
  · cases c with
    | between => exact hopen
    | inside => exact absurd hopen.1 hne
    | full f n off =>
      obtain ⟨first, k, r, seg0, rfl, hfirst, rfl, rfl, hlast, hr, hpart, h0, hfin, hparts⟩ := hopen
      refine ⟨rfl, first, ?_, ?_⟩
      · rw [List.length_append, List.length_singleton]
        omega
      · rw [← hfirst]
        refine (hparts.append [rs]).concat hr hpart rfl h0 hfin ⟨rs, ?_, hlast, hfull f _ _ rfl⟩
        rw [hfirst]
        exact List.getElem?_concat_length
  · rw [List.flatten_append, List.flatten_singleton, List.append_nil]
    exact hsegs.imp fun _ _ h => h.append [rs]

theorem Grouped.path {c c' : Cursor H} {rs rs' : List (Record H)} (h : Grouped T rss rs c)
    (hpath : StepPath (Follows T) c rs' c') : Grouped T rss (rs ++ rs') c' :=
  hpath.invariant_prefix rs (I := fun rs c => Grouped T rss rs c) (fun _ _ _ _ h hr => h.follows hr) h

/-- **The records of a stream are grouped by frame.** -/
theorem grouped_of_sends {s : UInt32} {ds : List (Datagram H)} {pending : List (Record H)}
    {c0 c : Cursor H} {s' : UInt32}
    (h : StepPath (Sends T) (.between 0 T.lib.reset, s) ds (c0, s'))
    (hp : StepPath (Follows T) c0 pending c) : Grouped T (ds.map Datagram.records) pending c := by
  have h0 : Grouped T [] [] (.between 0 T.lib.reset) := ⟨[], [], rfl, rfl, .nil⟩
  have hds := h.invariant_prefix []
    (I := fun (ds : List (Datagram H)) (s : Cursor H × UInt32) =>
      Grouped T (ds.map Datagram.records) [] s.1) (fun done s d s' hI hd => by
      obtain ⟨c1, hpath, hcut, hfull⟩ := hd.emits.path
      have h1 := (hI.path hpath).cut hfull hd.emits.nonempty
      rw [← hcut] at h1
      rwa [List.map_append]) h0
  exact hds.path hp

/-! ## Sequence numbers -/

/-- **Successive numbers**, from a counter at `seq` on: `UINT32_MAX` is not among them, 1 comes after
`UINT32_MAX - 1`, and the counter ends one behind the last. -/
structure Successive (seq : UInt32) (numbers : List UInt32) (counter : UInt32) : Prop where
  head : ∀ n ∈ numbers.head?, n = if seq = 0xFFFFFFFF then 1 else seq
  next : ∀ i (h : i + 1 < numbers.length),
    numbers[i + 1] = if numbers[i] = 0xFFFFFFFE then 1 else numbers[i] + 1
  ne_max : ∀ n ∈ numbers, n ≠ 0xFFFFFFFF
  counter : counter = (numbers.getLast?.map (· + 1)).getD seq

theorem Successive.concat {seq counter : UInt32} {numbers : List UInt32}
    (h : Successive seq numbers counter) :
    Successive seq (numbers ++ [PacketEncoder.nextSequence counter])
      (PacketEncoder.nextSequence counter + 1) where
  head n hn := by
    cases numbers with
    | nil =>
      obtain rfl : counter = seq := h.counter
      obtain rfl := Option.some.inj hn
      rfl
    | cons a as => exact h.head n hn
  next i hi := by
    rw [List.length_append, List.length_singleton] at hi
    by_cases hlt : i + 1 < numbers.length
    · rw [List.getElem_append_left hlt, List.getElem_append_left (by omega)]
      exact h.next i hlt
    · have hcounter := h.counter
      rw [List.getLast?_eq_getElem?, List.getElem?_eq_getElem (by omega)] at hcounter
      simp only [Option.map_some, Option.getD_some, show numbers.length - 1 = i by omega] at hcounter
      rw [List.getElem_append_right (by omega), List.getElem_append_left (by omega),
        List.getElem_singleton, hcounter, PacketEncoder.nextSequence]
      have hmax : numbers[i] + 1 = 0xFFFFFFFF ↔ numbers[i] = 0xFFFFFFFE := by
        have hlt := numbers[i].toNat_lt
        simp only [← UInt32.toNat_inj, UInt32.toNat_add, UInt32.reduceToNat]
        omega
      simp only [hmax]
  ne_max n hn := by
    rcases List.mem_append.mp hn with hn | hn
    · exact h.ne_max n hn
    · obtain rfl := List.mem_singleton.mp hn
      unfold PacketEncoder.nextSequence
      split
      · decide
      · assumption
  counter := by
    rw [List.getLast?_concat]
    rfl

theorem successive_of_sends {s s' : Cursor H × UInt32} {ds : List (Datagram H)}
    (h : StepPath (Sends T) s ds s') : Successive s.2 (ds.map Datagram.sequence) s'.2 := by
  have h0 : Successive s.2 [] s.2 :=
    ⟨fun _ hn => absurd hn (by simp), fun i hi => absurd hi (by simp), fun _ hn => absurd hn (by simp), rfl⟩
  have hds := h.invariant_prefix []
    (I := fun (ds : List (Datagram H)) (t : Cursor H × UInt32) =>
      Successive s.2 (ds.map Datagram.sequence) t.2) (fun done t d t' hI hd => by
      rw [List.map_append, List.map_singleton, hd.counter, hd.sequence]
      exact hI.concat) h0
  exact hds

/-- Every datagram of a stream has a record and is no larger than `l4mtu`. -/
theorem size_of_sends {s s' : Cursor H × UInt32} {ds : List (Datagram H)}
    (h : StepPath (Sends T) s ds s') : ∀ d ∈ ds, d.records ≠ [] ∧ d.size ≤ T.l4mtu := by
  intro d hd
  obtain ⟨t, t', ht⟩ := h.exists_step hd
  exact ⟨ht.emits.nonempty, ht.emits.size_le⟩

end SuperEthd
