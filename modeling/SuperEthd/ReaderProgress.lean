import SuperEthd.TransmitStream

/-! # The TAP reader goes on

Between reading a frame and pushing its buffer the reader learns the source of the frame, in one locked
section or two.  What it left behind when it let the lock go is what it will add, so that the others
cannot get in its way. -/
namespace SuperEthd
open PacketEncoder

variable {H : Type} {B : Nat}

/-- What the reader is about to add. -/
def TapReader.pending : TapReader B → Option (FDBMACAddress × Option In6Addr)
  | .adding buffer => some (buffer.src_mac, none)
  | _ => none

namespace PacketSwitch
variable {expire_time : Int} {s s' : PacketSwitch B}

/-- The reader adds what it looked up in vain, and nothing else. -/
def Learns (s : PacketSwitch B) : Prop := s.learning.pending .tap_read = s.tap_read.pending

/-- What the other threads learn is none of the reader's. -/
theorem pending_others {learning learning' : Learning In6Addr} {event : LearningEvent In6Addr}
    (hfrom : FromNodes s.remote_nodes event) (hlearn : Learning.Step expire_time learning event learning') :
    learning'.pending .tap_read = learning.pending .tap_read := by
  cases hlearn with
  | dropped => rfl
  | found => rfl
  | expired => rfl
  | missed | added =>
    obtain ⟨node, -, rfl⟩ := hfrom
    simp [handlerOf]

/-- **One step** of learning. -/
theorem Learns.step {event : LearningEvent In6Addr} (h : Learns s) (hturn : Step expire_time s (some event) s') :
    Learns s' := by
  unfold Learns at h ⊢
  cases hturn with
  | dropped hreader _ _ learn =>
    rw [hreader] at h
    cases learn
    exact h
  | found hreader _ _ learn =>
    rw [hreader] at h
    cases learn with
    | found => exact h
    | added hpending => cases h.symm.trans hpending
  | @missed buffer frame learning hreader hfilled hfits learn =>
    cases learn
    simp [handlerOf, TapReader.pending]
  | added hreader learn =>
    rw [hreader] at h
    cases learn with
    | found hidle => cases h.symm.trans hidle
    | added => simp [handlerOf, TapReader.pending]
  | others hfrom learn => exact (pending_others hfrom learn).trans h

end PacketSwitch

namespace TransmitSide
variable {T : Tunnel H} {addr : In6Addr → SockaddrStorage} {expire_time : Int} {remote_nodes : List In6Addr}
  {available : List (PacketBuffer T.B)} {s s' : TransmitSide H T.B} {event : TransmitEvent T.B}
  {events : List (TransmitEvent T.B)}

/-- **One step** of any thread. -/
theorem learns_step (hnodup : remote_nodes.Nodup) (hne : remote_nodes ≠ [])
    (howned : Owned remote_nodes T.packet_format available s) (h : s.switch.Learns)
    (hstep : Step T addr expire_time s event s') : s'.switch.Learns := by
  cases hstep with
  | learn hturn => exact h.step hturn
  | pop hreader =>
    unfold PacketSwitch.Learns at h
    rw [hreader] at h
    exact h
  | unicast hreader hnone hstation hrun =>
    unfold PacketSwitch.Learns at h
    rw [hreader] at h
    rcases forward_station howned.known hstation hrun with ⟨-, rfl, rfl⟩ | ⟨n, -, -, rfl, rfl⟩ <;> exact h
  | branch hinside hrun =>
    obtain ⟨buffer, labels, -, -, hmove⟩ := howned.moves hnodup hne hinside hrun
    obtain ⟨-, hlearning, htap⟩ := hmove.same
    unfold PacketSwitch.Learns at h ⊢
    rw [hlearning, htap]
    exact h
  | back hinside =>
    have hbranch := howned.branch
    unfold InBranch at hbranch
    rw [hinside] at hbranch
    obtain ⟨buffer, labels, hreader, -⟩ := hbranch
    unfold PacketSwitch.Learns at h
    rw [hreader] at h
    exact h
  | multicast => exact h
  | construct => exact h
  | constructed => exact h
  | items => exact h
  | wait => exact h
  | wake => exact h
  | timeout => exact h
  | flush => exact h
  | encode => exact h
  | resume => exact h
  | encoded => exact h
  | writerWait => exact h
  | send => exact h
  | giveBack => exact h

/-- **Runs.** -/
theorem learns_of_path (hnodup : remote_nodes.Nodup) (hne : remote_nodes ≠ [])
    (hrun : StepPath (Step T addr expire_time) (.start remote_nodes available) events s) : s.switch.Learns := by
  have hboth : Owned remote_nodes T.packet_format available s ∧ s.switch.Learns := by
    refine hrun.invariant (I := fun s => Owned remote_nodes T.packet_format available s ∧ s.switch.Learns) ?_
      ⟨.start remote_nodes available, rfl⟩
    rintro s event t ⟨howned, h⟩ hstep
    exact ⟨howned.step hnodup hne hstep, learns_step hnodup hne howned h hstep⟩
  exact hboth.2

/-! ## One frame -/

variable (addr expire_time) in
/-- **A source is learned**, in one locked section or two. -/
theorem exists_learned_source {buffer : PacketBuffer T.B} {frame : List UInt8} (hlearns : s.switch.Learns)
    (hreader : s.switch.tap_read = .reading (some buffer)) (hfilled : frame ≠ []) (hfits : frame.length ≤ T.B)
    (hsource : isMulticast (buffer.readFrom frame hfits).src_mac = false) :
    ∃ count learning, StepPath (Step T addr expire_time) s (List.replicate count .silent)
        { s with switch := { s.switch with
          learning := learning, tap_read := .forwarding (buffer.readFrom frame hfits) } } ∧
      learning.pending .tap_read = none := by
  have hidle : s.switch.learning.pending .tap_read = none := by
    unfold PacketSwitch.Learns at hlearns
    rw [hreader] at hlearns
    exact hlearns
  cases hget : s.switch.learning.fdb.get (buffer.readFrom frame hfits).src_mac with
  | some entry =>
    have hfound : Learning.Step expire_time s.switch.learning
        (.sighted (buffer.readFrom frame hfits).src_mac none 0) _ := .found hidle hsource hget
    exact ⟨1, _, .single (.learn (.found hreader hfilled hfits hfound)), hidle⟩
  | none =>
    let source := (buffer.readFrom frame hfits).src_mac
    let pending := Function.update s.switch.learning.pending .tap_read (some (source, none))
    have hpending : pending .tap_read = some (source, none) := Function.update_self ..
    have hmissed : Learning.Step expire_time s.switch.learning (.missed source none) ⟨_, pending⟩ :=
      .missed hidle hsource hget
    have hadded : Learning.Step expire_time ⟨s.switch.learning.fdb, pending⟩ (.sighted source none 0) _ :=
      .added hpending
    refine ⟨2, _, .cons (.learn (.missed hreader hfilled hfits hmissed)) (.single (.learn (.added rfl hadded))), ?_⟩
    simp [handlerOf]

/-- The reader is to take a buffer, and there is one node. -/
structure AtRest (n : In6Addr) (s : TransmitSide H B) : Prop where
  reader : s.switch.tap_read = .reading none
  outside : s.broadcast = none
  remote_nodes : s.switch.remote_nodes = [n]
  learns : s.switch.Learns

/-- A frame that is learned from, for a group. -/
structure GroupFrame (B : Nat) (frame : List UInt8) : Prop where
  long : 12 ≤ frame.length
  fits : frame.length ≤ B
  group : isMulticast (Vector.ofFn fun i => frame.getD i 0) = true
  source : isMulticast (Vector.ofFn fun i => frame.getD (6 + i) 0) = false

variable (addr expire_time) in
/-- **A frame for a group goes to the node**, in a buffer that is taken for it. -/
theorem AtRest.exists_routed {n : In6Addr} {b : PacketBuffer T.B} {pool : List (PacketBuffer T.B)} {frame : List UInt8}
    (h : AtRest n s) (hframe : GroupFrame T.B frame) (hpool : s.switch.available_rx_buffer_pool.pool = b :: pool) :
    ∃ events s', StepPath (Step T addr expire_time) s events s' ∧ AtRest n s' ∧ s'.encoder = s.encoder ∧
      s'.writer = s.writer ∧ s'.switch.available_rx_buffer_pool.pool = pool ∧
      (s'.switch.encoder_pool n).pool = (s.switch.encoder_pool n).pool ++ [b.readFrom frame hframe.fits] ∧
      routedTo n events = [frame] ∧ sentTo n events = [] := by
  have hpop : s.switch.available_rx_buffer_pool.pop_wait = .ok (b, ⟨pool⟩) := by
    rw [BufferPool.pop_wait, hpool]
  have hdata : (b.readFrom frame hframe.fits).data = frame := PacketBuffer.data_readFrom hframe.fits
  have hsource : isMulticast (b.readFrom frame hframe.fits).src_mac = false := by
    rw [PacketBuffer.src_mac_of_data hdata hframe.long]
    exact hframe.source
  have hgroup : isMulticast (b.readFrom frame hframe.fits).dst_mac = true := by
    rw [PacketBuffer.dst_mac_of_data hdata hframe.long]
    exact hframe.group
  have hlearns := h.learns
  unfold PacketSwitch.Learns at hlearns
  rw [h.reader] at hlearns
  let s1 : TransmitSide H T.B := { s with switch := { s.switch with
    available_rx_buffer_pool := ⟨pool⟩, tap_read := .reading (some b) } }
  obtain ⟨count, learning, hpath, hpending⟩ := exists_learned_source addr expire_time (s := s1) hlearns rfl
    (List.ne_nil_of_length_pos (Nat.lt_of_lt_of_le (by decide) hframe.long)) hframe.fits hsource
  let s2 : TransmitSide H T.B := { s1 with switch := { s1.switch with
    learning := learning, tap_read := .forwarding (b.readFrom frame hframe.fits) } }
  let s3 : TransmitSide H T.B := { s2 with broadcast := some (some (b.readFrom frame hframe.fits), .multicast) }
  have hnext := Broadcast.next_single (s := ⟨s3.switch, 0, some (b.readFrom frame hframe.fits), .multicast⟩) rfl
    h.remote_nodes rfl
  have hfirst : Step T addr expire_time s .silent s1 := .pop h.reader hpop
  have hrouted : Step T addr expire_time s2 (.routed (b.readFrom frame hframe.fits) s2.switch.remote_nodes) s3 :=
    .multicast rfl h.outside hgroup
  have hback : Step T addr expire_time _ .silent _ := .back (s := { s3 with
    switch := Broadcast.afterPush s3.switch n (b.readFrom frame hframe.fits), broadcast := some (none, .done) }) rfl
  refine ⟨_, _, .cons hfirst (hpath.append (.cons hrouted (.cons (.branch rfl hnext) (.single hback)))),
    ⟨rfl, rfl, h.remote_nodes, hpending⟩, rfl, rfl, rfl, ?_, ?_, ?_⟩
  · exact congrArg BufferPool.pool (Function.update_self ..)
  · rw [← List.singleton_append, routedTo_append, routedTo_append, routedTo_silent, routedTo_replicate]
    show dataFor n _ s.switch.remote_nodes ++ [] = [frame]
    rw [h.remote_nodes, dataFor_cons, if_pos rfl, hdata]
    rfl
  · rw [← List.singleton_append, sentTo_append, sentTo_append, sentTo_silent, sentTo_replicate]
    rfl

end TransmitSide
end SuperEthd
