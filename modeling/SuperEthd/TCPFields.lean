import SuperEthd.ChecksumVerification

/-! # The fields of a TCP header

The getters and setters of `TCPPacketTmpl` as a family.  Three of the setters, those of the offset, the
window and the urgent pointer, store into `ack`, and two of the getters swap 16 bits as if they were
32. -/
namespace SuperEthd.NetKit
open BigEndian

/-! ## Swapping 32 bits -/

theorem bswap32_toNat {x : UInt32} {a b c d : Nat} (ha : a < 256) (hb : b < 256) (hc : c < 256)
    (hd : d < 256) (hx : x.toNat = a * 16777216 + b * 65536 + c * 256 + d) :
    (bswap32 x).toNat = d * 16777216 + c * 65536 + b * 256 + a := by
  have h1 : x.toNat % 256 = d := by omega
  have h2 : x.toNat / 256 % 256 = c := by omega
  have h3 : x.toNat / 65536 % 256 = b := by omega
  have h4 : x.toNat / 16777216 = a := by omega
  rw [bswap32, h1, h2, h3, h4, UInt32.toNat_ofNat', Nat.mod_eq_of_lt (by omega)]

theorem exists_bytes (x : UInt32) : ∃ a b c d, a < 256 ∧ b < 256 ∧ c < 256 ∧ d < 256 ∧
    x.toNat = a * 16777216 + b * 65536 + c * 256 + d := by
  have hx := x.toNat_lt
  refine ⟨x.toNat / 16777216, x.toNat / 65536 % 256, x.toNat / 256 % 256, x.toNat % 256, ?_, ?_, ?_, ?_, ?_⟩
  · omega
  · exact Nat.mod_lt _ (by decide)
  · exact Nat.mod_lt _ (by decide)
  · exact Nat.mod_lt _ (by decide)
  · omega

theorem bswap32_bswap32 (x : UInt32) : bswap32 (bswap32 x) = x := by
  obtain ⟨a, b, c, d, ha, hb, hc, hd, hx⟩ := exists_bytes x
  apply UInt32.toNat_inj.mp
  rw [bswap32_toNat hd hc hb ha (bswap32_toNat ha hb hc hd hx), hx]

theorem bswap32_injective : Function.Injective bswap32 := Function.LeftInverse.injective bswap32_bswap32

/-- The lower half of a swapped number is the upper half of the number, which is empty here. -/
theorem bswap32_toUInt16 (x : UInt16) : (bswap32 x.toUInt32).toUInt16 = 0 := by
  have hx := x.toNat_lt
  have hswap := bswap32_toNat (x := x.toUInt32) (a := 0) (b := 0) (c := x.toNat / 256) (d := x.toNat % 256)
    (by decide) (by decide) (by omega) (by omega) (by rw [UInt16.toNat_toUInt32]; omega)
  apply UInt16.toNat_inj.mp
  rw [UInt32.toNat_toUInt16, hswap, UInt16.toNat_zero]
  omega

/-! ## Getters and setters -/

inductive TCPFlag
  | cwr
  | ece
  | urg
  | ack
  | psh
  | rst
  | syn
  | fin
  deriving DecidableEq

/-- A field with a getter and a setter. -/
inductive TCPField
  | srcPort
  | dstPort
  | sequence
  | ack
  | offset
  | opt (flag : TCPFlag)
  | window
  | urgent
  deriving DecidableEq

/-- The type of the getter's result and of the setter's parameter. -/
@[reducible] def TCPField.Value : TCPField → Type
  | srcPort => UInt16
  | dstPort => UInt16
  | sequence => UInt32
  | ack => UInt32
  | offset => UInt8
  | opt _ => Bool
  | window => UInt16
  | urgent => UInt16

namespace TCPPacketTmpl
section Family
variable {T : Type} (p : TCPPacketTmpl T)

def getOpt : TCPFlag → Bool
  | .cwr => p.getOptCWR
  | .ece => p.getOptECE
  | .urg => p.getOptURG
  | .ack => p.getOptACK
  | .psh => p.getOptPSH
  | .rst => p.getOptRST
  | .syn => p.getOptSYN
  | .fin => p.getOptFIN

def setOpt (v : Bool) : TCPFlag → TCPPacketTmpl T
  | .cwr => p.setOptCWR v
  | .ece => p.setOptECE v
  | .urg => p.setOptURG v
  | .ack => p.setOptACK v
  | .psh => p.setOptPSH v
  | .rst => p.setOptRST v
  | .syn => p.setOptSYN v
  | .fin => p.setOptFIN v

def get : (f : TCPField) → f.Value
  | .srcPort => p.getSrcPort .little
  | .dstPort => p.getDstPort .little
  | .sequence => p.getSequence .little
  | .ack => p.getAck .little
  | .offset => p.getOffset
  | .opt flag => p.getOpt flag
  | .window => p.getWindow .little
  | .urgent => p.getUrgent .little

def set : (f : TCPField) → f.Value → TCPPacketTmpl T
  | .srcPort, v => p.setSrcPort .little v
  | .dstPort, v => p.setDstPort .little v
  | .sequence, v => p.setSequence .little v
  | .ack, v => p.setAck .little v
  | .offset, v => p.setOffset v
  | .opt flag, v => p.setOpt v flag
  | .window, v => p.setWindow .little v
  | .urgent, v => p.setUrgent .little v

end Family
end TCPPacketTmpl

/-! ## What they store -/

/-- A member of the object with a number to be stored in it. -/
inductive TCPMember
  | src_port (x : UInt16)
  | dst_port (x : UInt16)
  | sequence (x : UInt32)
  | ack (x : UInt32)
  | opt (flag : TCPFlag) (x : Bool)

namespace TCPMember
variable {T : Type} {p : TCPPacketTmpl T} {m m' : TCPMember}

def store (p : TCPPacketTmpl T) : TCPMember → TCPPacketTmpl T
  | src_port x => { p with src_port := x }
  | dst_port x => { p with dst_port := x }
  | sequence x => { p with sequence := x }
  | ack x => { p with ack := x }
  | opt flag x => p.setOpt x flag

/-- The field that the member belongs to. -/
def field : TCPMember → TCPField
  | src_port _ => .srcPort
  | dst_port _ => .dstPort
  | sequence _ => .sequence
  | ack _ => .ack
  | opt flag _ => .opt flag

theorem getOpt_setOpt (a b : TCPFlag) (v : Bool) :
    (p.setOpt v a).getOpt b = if b = a then v else p.getOpt b := by
  cases a <;> cases b <;> rfl

theorem setOpt_comm {a b : TCPFlag} (hne : a ≠ b) (v w : Bool) :
    (p.setOpt v a).setOpt w b = (p.setOpt w b).setOpt v a := by
  cases a <;> cases b <;> first | rfl | exact absurd rfl hne

/-- A getter of another field does not notice. -/
theorem get_store {g : TCPField} (hne : g ≠ m.field) : (m.store p).get g = p.get g := by
  cases m with
  | opt flag x =>
    cases g with
    | opt flag' =>
      have hflag : flag' ≠ flag := fun heq => hne (congrArg TCPField.opt heq)
      exact (getOpt_setOpt flag flag' x).trans (if_neg hflag)
    | srcPort | dstPort | sequence | ack | offset | window | urgent => cases flag <;> rfl
  | src_port | dst_port | sequence | ack =>
    cases g with
    | opt flag => cases flag <;> rfl
    | srcPort | dstPort | sequence | ack | offset | window | urgent =>
      first
      | exact absurd rfl hne
      | rfl

theorem store_comm (hne : m.field ≠ m'.field) : m'.store (m.store p) = m.store (m'.store p) := by
  cases m with
  | opt flag x =>
    cases m' with
    | opt flag' x' => exact setOpt_comm (fun heq => hne (congrArg TCPField.opt heq)) x x'
    | src_port | dst_port | sequence | ack => cases flag <;> rfl
  | src_port | dst_port | sequence | ack =>
    cases m' with
    | opt flag => cases flag <;> rfl
    | src_port | dst_port | sequence | ack =>
      first
      | exact absurd rfl hne
      | rfl

end TCPMember

namespace TCPField
variable {T : Type} {p : TCPPacketTmpl T}

/-- What the setter stores. -/
def member : (f : TCPField) → f.Value → TCPMember
  | srcPort, v => .src_port (bswap16 v)
  | dstPort, v => .dst_port (bswap16 v)
  | sequence, v => .sequence (bswap32 v)
  | ack, v => .ack (bswap32 v)
  | offset, v => .ack v.toUInt32
  | opt flag, v => .opt flag v
  | window, v => .ack (bswap32 v.toUInt32)
  | urgent, v => .ack (bswap32 v.toUInt32)

theorem set_eq_store (f : TCPField) (v : f.Value) : p.set f v = (f.member v).store p := by
  cases f <;> rfl

/-- The acknowledgment number that a setter leaves behind, if it is one of the four that store in
`ack`. -/
def asAck : (f : TCPField) → f.Value → Option UInt32
  | ack, v => some v
  | offset, v => some (UInt32.ofNat (v.toNat * 16777216))
  | window, v => some v.toUInt32
  | urgent, v => some v.toUInt32
  | _, _ => none

theorem bswap32_toUInt32 (v : UInt8) : bswap32 v.toUInt32 = UInt32.ofNat (v.toNat * 16777216) := by
  have hv := v.toNat_lt
  have hswap := bswap32_toNat (x := v.toUInt32) (a := 0) (b := 0) (c := 0) (d := v.toNat)
    (by decide) (by decide) (by decide) hv (by rw [UInt8.toNat_toUInt32]; omega)
  apply UInt32.toNat_inj.mp
  rw [hswap, UInt32.toNat_ofNat', Nat.mod_eq_of_lt (by omega)]
  omega

/-- Where a setter stores: in the member of its field, or in `ack` a number that reads as `asAck`. -/
theorem member_cases (f : TCPField) (v : f.Value) :
    (f.member v).field = f ∧ f ≠ ack ∧ f.asAck v = none ∨
      ∃ a, f.member v = .ack a ∧ f.asAck v = some (bswap32 a) := by
  cases f with
  | srcPort | dstPort | sequence => exact Or.inl ⟨rfl, TCPField.noConfusion, rfl⟩
  | opt flag => exact Or.inl ⟨rfl, TCPField.noConfusion, rfl⟩
  | ack => exact Or.inr ⟨bswap32 v, rfl, congrArg some (bswap32_bswap32 v).symm⟩
  | offset => exact Or.inr ⟨v.toUInt32, rfl, congrArg some (bswap32_toUInt32 v).symm⟩
  | window => exact Or.inr ⟨bswap32 v.toUInt32, rfl, congrArg some (bswap32_bswap32 v.toUInt32).symm⟩
  | urgent => exact Or.inr ⟨bswap32 v.toUInt32, rfl, congrArg some (bswap32_bswap32 v.toUInt32).symm⟩

/-- **Setters of two fields commute** if and only if they do not store different things in `ack`. -/
theorem set_comm_iff {f g : TCPField} (hne : f ≠ g) (v : f.Value) (w : g.Value) :
    (p.set f v).set g w = (p.set g w).set f v ↔
      ∀ a b, f.asAck v = some a → g.asAck w = some b → a = b := by
  simp only [set_eq_store]
  rcases member_cases f v with ⟨hf, hfack, hfnone⟩ | ⟨a, hfmember, hfsome⟩
  · rcases member_cases g w with ⟨hg, -, -⟩ | ⟨b, hgmember, -⟩
    · have hfields : (f.member v).field ≠ (g.member w).field := by rwa [hf, hg]
      exact iff_of_true (TCPMember.store_comm hfields) fun a b ha => by rw [hfnone] at ha; cases ha
    · have hfields : (f.member v).field ≠ (g.member w).field := by rwa [hf, hgmember]
      exact iff_of_true (TCPMember.store_comm hfields) fun a b ha => by rw [hfnone] at ha; cases ha
  · rcases member_cases g w with ⟨hg, hgack, hgnone⟩ | ⟨b, hgmember, hgsome⟩
    · have hfields : (f.member v).field ≠ (g.member w).field := by
        rw [hg, hfmember]
        exact hgack.symm
      exact iff_of_true (TCPMember.store_comm hfields) fun a b _ hb => by rw [hgnone] at hb; cases hb
    · rw [hfmember, hgmember, hfsome, hgsome]
      constructor
      · intro h a' b' ha' hb'
        have hab : b = a := congrArg TCPPacketTmpl.ack h
        rw [← Option.some.inj ha', ← Option.some.inj hb', hab]
      · intro h
        have hab : a = b := bswap32_injective (h _ _ rfl rfl)
        rw [hab]

/-! ## What is read back -/

/-- The getter reads back what the setter wrote, and no other getter notices. -/
structure ReadsBack (p : TCPPacketTmpl T) (f : TCPField) (v : f.Value) : Prop where
  get_set : (p.set f v).get f = v
  get_other : ∀ g, g ≠ f → (p.set f v).get g = p.get g

/-- A setter that stores in another field's member finds the value in place there and its own field
unchanged by it. -/
def InPlace (p : TCPPacketTmpl T) : (f : TCPField) → f.Value → Prop
  | offset, v => p.offset = v ∧ p.ack = v.toUInt32
  | window, v => v = 0 ∧ p.ack = 0
  | urgent, v => v = 0 ∧ p.ack = 0
  | _, _ => True

/-- A setter that finds its value in place changes nothing, or stores in the member of its field. -/
theorem set_eq_self_or {f : TCPField} {v : f.Value} (h : InPlace p f v) :
    p.set f v = p ∨ (f.member v).field = f := by
  cases f with
  | srcPort | dstPort | sequence | ack | opt => exact Or.inr rfl
  | offset =>
    left
    rw [set_eq_store]
    show { p with ack := v.toUInt32 } = p
    rw [← h.2]
  | window | urgent =>
    left
    have hzero : bswap32 (UInt16.toUInt32 0) = 0 := by decide
    rw [set_eq_store, h.1]
    show { p with ack := bswap32 (UInt16.toUInt32 0) } = p
    rw [hzero, ← h.2]

theorem get_window (q : TCPPacketTmpl T) : q.get window = (0 : UInt16) := bswap32_toUInt16 q.window

theorem get_urgent (q : TCPPacketTmpl T) : q.get urgent = (0 : UInt16) := bswap32_toUInt16 q.urgent

theorem ack_of_get_other {f : TCPField} {v : f.Value} {a : UInt32} (hmember : f.member v = .ack a)
    (hne : ack ≠ f) (h : ReadsBack p f v) : p.ack = a := by
  have hget := h.get_other ack hne
  rw [set_eq_store, hmember] at hget
  exact (bswap32_injective hget).symm

/-- **Which fields read back.** -/
theorem readsBack_iff (f : TCPField) (v : f.Value) : ReadsBack p f v ↔ InPlace p f v := by
  constructor
  · intro h
    cases f with
    | srcPort | dstPort | sequence | ack | opt => exact trivial
    | offset => exact ⟨h.get_set, ack_of_get_other rfl TCPField.noConfusion h⟩
    | window =>
      have hv : v = 0 := h.get_set.symm.trans (get_window _)
      have hack := ack_of_get_other rfl TCPField.noConfusion h
      rw [hv] at hack
      exact ⟨hv, hack.trans (by decide)⟩
    | urgent =>
      have hv : v = 0 := h.get_set.symm.trans (get_urgent _)
      have hack := ack_of_get_other rfl TCPField.noConfusion h
      rw [hv] at hack
      exact ⟨hv, hack.trans (by decide)⟩
  · intro h
    have hset : (p.set f v).get f = v := by
      cases f with
      | srcPort => exact bswap16_bswap16 v
      | dstPort => exact bswap16_bswap16 v
      | sequence => exact bswap32_bswap32 v
      | ack => exact bswap32_bswap32 v
      | opt flag => exact (TCPMember.getOpt_setOpt flag flag v).trans (if_pos rfl)
      | offset => exact h.1
      | window => exact (get_window _).trans h.1.symm
      | urgent => exact (get_urgent _).trans h.1.symm
    refine ⟨hset, fun g hg => ?_⟩
    rcases set_eq_self_or h with hself | hfield
    · rw [hself]
    · rw [set_eq_store]
      exact TCPMember.get_store (by rwa [hfield])

end TCPField

/-! ## What is sent -/

/-- The bytes `after` differ from `before` in the bits of `mask` at most, and not at all behind it. -/
def Within : List UInt8 → List UInt8 → List UInt8 → Prop
  | m :: mask, b :: before, a :: after => a &&& ~~~m = b &&& ~~~m ∧ Within mask before after
  | [], before, after => after = before
  | _ :: _, _, _ => False

namespace Within
variable {mask bytes before after : List UInt8}

theorem refl (h : mask.length ≤ bytes.length) : Within mask bytes bytes := by
  induction mask generalizing bytes with
  | nil => exact rfl
  | cons m mask ih =>
    cases bytes with
    | nil => cases h
    | cons b bytes => exact ⟨rfl, ih (Nat.le_of_succ_le_succ h)⟩

theorem append_left (front : List UInt8) (h : Within mask before after) :
    Within (List.replicate front.length 0 ++ mask) (front ++ before) (front ++ after) := by
  induction front with
  | nil => exact h
  | cons b front ih => exact ⟨rfl, ih⟩

theorem append_right (h : Within mask before after) (back : List UInt8) :
    Within mask (before ++ back) (after ++ back) := by
  induction mask generalizing before after with
  | nil => exact congrArg (· ++ back) h
  | cons m mask ih =>
    cases before with
    | nil => cases h
    | cons b before =>
      cases after with
      | nil => cases h
      | cons a after => exact ⟨h.1, ih h.2⟩

end Within

/-- The bit of a flag in its byte, RFC 793 and RFC 3168. -/
def TCPFlag.bit : TCPFlag → UInt8
  | cwr => 128
  | ece => 64
  | urg => 32
  | ack => 16
  | psh => 8
  | rst => 4
  | syn => 2
  | fin => 1

/-- The bits of a field in the header, and those of the checksum. -/
def TCPField.mask : TCPField → List UInt8
  | srcPort => [255, 255, 0, 0, 0, 0, 0, 0, 0, 0, 0, 0, 0, 0, 0, 0, 255, 255, 0, 0]
  | dstPort => [0, 0, 255, 255, 0, 0, 0, 0, 0, 0, 0, 0, 0, 0, 0, 0, 255, 255, 0, 0]
  | sequence => [0, 0, 0, 0, 255, 255, 255, 255, 0, 0, 0, 0, 0, 0, 0, 0, 255, 255, 0, 0]
  | ack => [0, 0, 0, 0, 0, 0, 0, 0, 255, 255, 255, 255, 0, 0, 0, 0, 255, 255, 0, 0]
  | offset => [0, 0, 0, 0, 0, 0, 0, 0, 0, 0, 0, 0, 0xf0, 0, 0, 0, 255, 255, 0, 0]
  | opt flag => [0, 0, 0, 0, 0, 0, 0, 0, 0, 0, 0, 0, 0, flag.bit, 0, 0, 255, 255, 0, 0]
  | window => [0, 0, 0, 0, 0, 0, 0, 0, 0, 0, 0, 0, 0, 0, 255, 255, 255, 255, 0, 0]
  | urgent => [0, 0, 0, 0, 0, 0, 0, 0, 0, 0, 0, 0, 0, 0, 0, 0, 255, 255, 255, 255]

namespace TCPPacketTmpl
variable {T : Type} (p : TCPPacketTmpl T)

/-- The byte of the flags. -/
def optionsByte : UInt8 :=
  TCPOptionsHeader.byte ⟨p.opt_cwr, p.opt_ece, p.opt_urg, p.opt_ack, p.opt_psh, p.opt_rst, p.opt_syn, p.opt_fin⟩

/-- The header that is sent, on a little-endian host. -/
def headerBytes (checksum : UInt16) : List UInt8 :=
  [UInt8.ofNat p.src_port.toNat, UInt8.ofNat (p.src_port.toNat / 256),
    UInt8.ofNat p.dst_port.toNat, UInt8.ofNat (p.dst_port.toNat / 256),
    UInt8.ofNat p.sequence.toNat, UInt8.ofNat (p.sequence.toNat / 256),
    UInt8.ofNat (p.sequence.toNat / 65536), UInt8.ofNat (p.sequence.toNat / 16777216),
    UInt8.ofNat p.ack.toNat, UInt8.ofNat (p.ack.toNat / 256),
    UInt8.ofNat (p.ack.toNat / 65536), UInt8.ofNat (p.ack.toNat / 16777216),
    UInt8.ofNat (UInt8.toNat 0 % 16 + p.offset.toNat % 16 * 16), p.optionsByte,
    UInt8.ofNat p.window.toNat, UInt8.ofNat (p.window.toNat / 256),
    UInt8.ofNat checksum.toNat, UInt8.ofNat (checksum.toNat / 256),
    UInt8.ofNat p.urgent.toNat, UInt8.ofNat (p.urgent.toNat / 256)]

theorem asBinary_eq [Layer3 T] : p.asBinary .little =
    Layer3.asBinary .little p.base p.getHeaderSizeTotal ++
      (p.headerBytes (cpu_to_be_16 .little (p.getChecksumLayer4 .little)) ++
        (Layer3.toPacket p.base).payloadBytes) := by
  rw [← List.append_assoc]
  rfl

theorem optionsByte_setOpt (flag : TCPFlag) (x : Bool) :
    (p.setOpt x flag).optionsByte &&& ~~~flag.bit = p.optionsByte &&& ~~~flag.bit := by
  obtain ⟨_, _, _, _, _, _, cwr, ece, urg, ack, psh, rst, syn, fin, _, _⟩ := p
  cases flag <;>
    simp only [setOpt, setOptCWR, setOptECE, setOptURG, setOptACK, setOptPSH, setOptRST, setOptSYN, setOptFIN,
      optionsByte, TCPFlag.bit]
  all_goals
    revert x cwr ece urg ack psh rst syn fin
    decide +kernel

/-- **What storing in a member changes in the header**: the bits of its field. -/
theorem headerBytes_store (m : TCPMember) (checksum checksum' : UInt16) :
    Within m.field.mask (p.headerBytes checksum) ((m.store p).headerBytes checksum') := by
  have hall : ∀ a b : UInt8, a &&& ~~~(255 : UInt8) = b &&& ~~~(255 : UInt8) := by
    intro a b
    have h255 : ~~~(255 : UInt8) = 0 := by decide
    rw [h255, UInt8.and_zero, UInt8.and_zero]
  cases m with
  | src_port x =>
    refine ⟨hall _ _, hall _ _, rfl, rfl, rfl, rfl, rfl, rfl, rfl, rfl, rfl, rfl, rfl, rfl, rfl, rfl, hall _ _,
      hall _ _, rfl, rfl, rfl⟩
  | dst_port x =>
    refine ⟨rfl, rfl, hall _ _, hall _ _, rfl, rfl, rfl, rfl, rfl, rfl, rfl, rfl, rfl, rfl, rfl, rfl, hall _ _,
      hall _ _, rfl, rfl, rfl⟩
  | sequence x =>
    refine ⟨rfl, rfl, rfl, rfl, hall _ _, hall _ _, hall _ _, hall _ _, rfl, rfl, rfl, rfl, rfl, rfl, rfl, rfl,
      hall _ _, hall _ _, rfl, rfl, rfl⟩
  | ack x =>
    refine ⟨rfl, rfl, rfl, rfl, rfl, rfl, rfl, rfl, hall _ _, hall _ _, hall _ _, hall _ _, rfl, rfl, rfl, rfl,
      hall _ _, hall _ _, rfl, rfl, rfl⟩
  | opt flag x =>
    have hbyte := optionsByte_setOpt p flag x
    cases flag <;>
      exact ⟨rfl, rfl, rfl, rfl, rfl, rfl, rfl, rfl, rfl, rfl, rfl, rfl, rfl, hbyte, rfl, rfl,
        hall _ _, hall _ _, rfl, rfl, rfl⟩

end TCPPacketTmpl

namespace TCPField
variable {T : Type} [Layer3 T] {p : TCPPacketTmpl T}

/-- Where the bits of the field and of the checksum are in what `asBinary` gives. -/
def binaryMask (p : TCPPacketTmpl T) (f : TCPField) : List UInt8 :=
  List.replicate (Layer3.asBinary .little p.base p.getHeaderSizeTotal).length 0 ++ f.mask

theorem within_of_inPlace {f : TCPField} {v : f.Value} (h : InPlace p f v) :
    Within (f.binaryMask p) (p.asBinary .little) ((p.set f v).asBinary .little) := by
  rcases set_eq_self_or h with hself | hfield
  · have hheader : ∀ checksum, Within f.mask (p.headerBytes checksum) (p.headerBytes checksum) := by
      intro checksum
      apply Within.refl
      cases f <;> exact Nat.le_refl 20
    rw [hself, TCPPacketTmpl.asBinary_eq]
    exact ((hheader _).append_right _).append_left _
  · have hheader := p.headerBytes_store (f.member v)
    have hbase : ((f.member v).store p).base = p.base := by
      cases f.member v with
      | opt flag x => cases flag <;> rfl
      | src_port | dst_port | sequence | ack => rfl
    have htotal : ((f.member v).store p).getHeaderSizeTotal = p.getHeaderSizeTotal :=
      congrArg (Layer3.getHeaderSizeTotal · + TCPPacketTmpl.getHeaderSize) hbase
    rw [hfield] at hheader
    rw [set_eq_store, TCPPacketTmpl.asBinary_eq, TCPPacketTmpl.asBinary_eq, hbase, htotal]
    exact ((hheader _ _).append_right _).append_left _

/-- **The setter of `f` is a lens**, beside that of another field `g`: it is read back, no other getter
notices, it commutes with the setter of `g`, and only the bits of `f` and the checksum are sent
otherwise. -/
structure Lens (p : TCPPacketTmpl T) (f : TCPField) (v : f.Value) (g : TCPField) (w : g.Value) : Prop where
  reads_back : ReadsBack p f v
  commutes : f ≠ g → (p.set f v).set g w = (p.set g w).set f v
  within : Within (f.binaryMask p) (p.asBinary .little) ((p.set f v).asBinary .little)

/-- **The setters are lenses** just where those of the offset, the window and the urgent pointer have
nothing to change, and two that store in `ack` store the same. -/
theorem lens_iff (p : TCPPacketTmpl T) (f : TCPField) (v : f.Value) (g : TCPField) (w : g.Value) :
    Lens p f v g w ↔
      InPlace p f v ∧ (f ≠ g → ∀ a b, f.asAck v = some a → g.asAck w = some b → a = b) := by
  constructor
  · intro h
    exact ⟨(readsBack_iff f v).mp h.reads_back, fun hne => (set_comm_iff hne v w).mp (h.commutes hne)⟩
  · rintro ⟨hplace, hack⟩
    exact ⟨(readsBack_iff f v).mpr hplace, fun hne => (set_comm_iff hne v w).mpr (hack hne),
      within_of_inPlace hplace⟩

/-- **A window of 4096** set in a new TCP segment is read back as zero, and is the acknowledgment
number instead; the order of the two calls decides which of them stays. -/
theorem window_becomes_ack :
    let p : TCPPacketTmpl IPv4Packet := ⟨IPv4Packet.sample [], 0, 0, 0, 0, 0, false, false, false, false, false,
      false, false, false, 0, 0⟩
    ((p.set window 4096).get window = (0 : UInt16) ∧ (p.set window 4096).get ack = (4096 : UInt32)) ∧
      ((p.set ack 1).set window 4096).ack ≠ ((p.set window 4096).set ack 1).ack ∧
      ¬Lens p window 4096 ack 1 := by
  intro p
  refine ⟨⟨by decide, by decide⟩, by decide, fun h => ?_⟩
  exact absurd h.reads_back.get_set (by decide)

end TCPField
end SuperEthd.NetKit
