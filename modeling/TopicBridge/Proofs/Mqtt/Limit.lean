/-
**How much a decoder waits for.**

A decoder asks for more bytes in two cases only: the length of the next packet is not there yet,
which takes at most four bytes, or the packet is not, whose size is then known and within the limit.
So the bytes that it leaves unread while it waits are few, whatever comes in.  Whether a packet is
too large depends on the announced size and on nothing else, for no reader of a body finds anything
too large; and it is found as soon as the length is there.

Main definitions:

* `Mqtt.Frame.Heralds` — some bytes begin with a type and a length that announce a packet of a size;
* `Mqtt.Reader.Spares` — a reader that finds nothing too large.

Main results:

* `Frame.split_eq_none_iff`, `Frame.split_eq_tooLarge_iff`, `Frame.split_eq_some_iff` — what becomes
  of the bytes that have come in, by what they announce;
* `Packet.spares` — a body is never found too large;
* `Decoder.length_le_of_decode` — **what is waiting is bounded**;
* `Decoder.decode_eq_tooLarge_iff` — **the limit is exact**.
-/

import TopicBridge.Proofs.Mqtt.Spelling
import TopicBridge.Proofs.Mqtt.Stream

set_option autoImplicit false

namespace TopicBridge.Mqtt

/-! ### Lengths -/

namespace VarInt

variable {bytes field more : Bytes} {groups n : Nat} {e : DecodeError}

theorem Spells.read (h : Spells field n) (more : Bytes) : read (field ++ more) = .ok (n, more) :=
  read_eq_ok_iff.2 ⟨field, rfl, h⟩

theorem Spells.extent (h : Spells field n) (more : Bytes) :
    extent (field ++ more) = field.length := by
  have hlen := extent_add_length_of_readGroups (h.read more)
  rw [List.length_append] at hlen
  omega

theorem Spells.le_maxValue (h : Spells field n) : n ≤ maxValue :=
  le_maxValue_of_read (h.read [])

/-- There are two things that can be wrong with a number: at least one of its groups is missing, or
there are too many of them. -/
theorem cases_of_readGroups (h : readGroups groups bytes = .error e) :
    e = .insufficientData ∧ bytes.length < groups ∨ e = .invalidRemainingLength := by
  induction groups generalizing bytes with
  | zero => exact .inr (Except.error.inj h).symm
  | succ groups ih =>
      cases bytes with
      | nil => exact .inl ⟨(Except.error.inj h).symm, Nat.succ_pos groups⟩
      | cons b tail =>
          simp only [readGroups] at h
          split at h
          · cases h
          · split at h
            · cases h
            · rename_i hread
              cases h
              rcases ih hread with ⟨he, hlt⟩ | he
              · exact .inl ⟨he, Nat.succ_lt_succ hlt⟩
              · exact .inr he

end VarInt

/-! ### Frames -/

namespace Frame

variable {limit extent n size size' : Nat} {first : UInt8} {bytes field more rest : Bytes}
  {f : Frame}

/-- The bytes begin with the type and the whole length of a packet, and this is its size, with the
type and the length. -/
def Heralds (bytes : Bytes) (size : Nat) : Prop :=
  ∃ first field n more, bytes = first :: (field ++ more) ∧ VarInt.Spells field n ∧
    size = 1 + field.length + n

theorem Heralds.le_maxPacketSize (h : Heralds bytes size) : size ≤ Decoder.maxPacketSize := by
  obtain ⟨first, field, n, more, -, hfield, rfl⟩ := h
  have hle := hfield.le_maxValue
  have hfour := hfield.2
  rw [Decoder.maxPacketSize]
  omega

/-- Bytes announce one size at most. -/
theorem Heralds.unique (h : Heralds bytes size) (h' : Heralds bytes size') : size = size' := by
  obtain ⟨first, field, n, more, rfl, hfield, rfl⟩ := h
  obtain ⟨first', field', n', more', hbytes, hfield', rfl⟩ := h'
  obtain ⟨-, htail⟩ := List.cons.inj hbytes
  have hextent := hfield.extent more
  have hread := hfield.read more
  rw [htail, hfield'.read] at hread
  rw [htail, hfield'.extent] at hextent
  obtain ⟨rfl, -⟩ := Prod.mk.inj (Except.ok.inj hread)
  rw [hextent]

theorem split_of_spells (h : VarInt.Spells field n) (first : UInt8) (more : Bytes) :
    split limit (first :: (field ++ more)) = splitBody limit first field.length n more := by
  rw [split, h.read, h.extent]

theorem splitBody_eq_tooLarge_iff :
    splitBody limit first extent n more = .error .packetTooLarge ↔
      limit < 1 + extent + n := by
  simp only [splitBody]
  split_ifs with hlimit
  · exact iff_of_true rfl hlimit
  · exact iff_of_false (by intro h; cases h) hlimit
  · exact iff_of_false (by intro h; cases h) hlimit

theorem splitBody_eq_none_iff :
    splitBody limit first extent n more = .ok none ↔
      1 + extent + n ≤ limit ∧ more.length < n := by
  simp only [splitBody, List.length_take]
  split_ifs with hlimit hshort
  · exact iff_of_false (by intro h; cases h) (by omega)
  · exact iff_of_true rfl (by omega)
  · exact iff_of_false (by intro h; cases h) (by omega)

theorem splitBody_eq_some_iff :
    splitBody limit first extent n more = .ok (some (f, rest)) ↔
      1 + extent + n ≤ limit ∧ f.first = first ∧ f.body.length = n ∧
        more = f.body ++ rest := by
  simp only [splitBody, List.length_take]
  split_ifs with hlimit hshort
  · refine iff_of_false (by intro h; cases h) ?_
    rintro ⟨hle, -⟩
    omega
  · refine iff_of_false (by intro h; cases h) ?_
    rintro ⟨-, -, rfl, rfl⟩
    rw [List.length_append] at hshort
    omega
  · constructor
    · intro h
      obtain ⟨rfl, rfl⟩ := Prod.mk.inj (Option.some.inj (Except.ok.inj h))
      refine ⟨Nat.not_lt.1 hlimit, rfl, ?_, (List.take_append_drop n more).symm⟩
      rw [List.length_take]
      omega
    · rintro ⟨-, rfl, rfl, rfl⟩
      rw [List.take_left, List.drop_left]

/-- The length of the next packet is not there as a whole, and there is nothing wrong with it. -/
def Unfinished : Bytes → Prop
  | [] => True
  | _ :: tail => VarInt.read tail = .error .insufficientData

theorem Unfinished.length_le (h : Unfinished bytes) : bytes.length ≤ 4 := by
  cases bytes with
  | nil => exact Nat.zero_le 4
  | cons first tail =>
      rcases VarInt.cases_of_readGroups h with ⟨-, hlt⟩ | hlong
      · exact hlt
      · cases hlong

theorem split_of_unfinished (h : Unfinished bytes) : split limit bytes = .ok none := by
  cases bytes with
  | nil => rfl
  | cons first tail =>
      have hread : VarInt.read tail = .error .insufficientData := h
      rw [split, hread]

/-- The length of the next packet is not there yet, or it announces a size, or it is wrong. -/
theorem cases_split (bytes : Bytes) :
    Unfinished bytes ∨
      (∃ first field n more, bytes = first :: (field ++ more) ∧ VarInt.Spells field n) ∨
      (∀ size, ¬Heralds bytes size) ∧
        ∀ limit, split limit bytes = .error .invalidRemainingLength := by
  cases bytes with
  | nil => exact .inl trivial
  | cons first tail =>
      cases hread : VarInt.read tail with
      | ok result =>
          obtain ⟨n, more⟩ := result
          obtain ⟨field, rfl, hfield⟩ := VarInt.read_eq_ok_iff.1 hread
          exact .inr (.inl ⟨first, field, n, more, rfl, hfield⟩)
      | error e =>
          rcases VarInt.cases_of_readGroups hread with ⟨rfl, -⟩ | rfl
          · exact .inl hread
          · refine .inr (.inr ⟨?_, fun limit => by rw [split, hread]⟩)
            rintro size ⟨first', field, n, more, h, hfield, -⟩
            obtain ⟨-, rfl⟩ := List.cons.inj h
            rw [hfield.read] at hread
            cases hread

theorem Unfinished.not_heralds (h : Unfinished bytes) : ¬Heralds bytes size := by
  rintro ⟨first, field, n, more, rfl, hfield, -⟩
  have hread : VarInt.read (field ++ more) = .error .insufficientData := h
  rw [hfield.read] at hread
  cases hread

/-- A size that is announced decides what becomes of the bytes. -/
theorem exists_heralds_iff {P : Nat → Prop} (h : Heralds bytes size) :
    (∃ size, Heralds bytes size ∧ P size) ↔ P size := by
  constructor
  · rintro ⟨size', hsize', hp⟩
    rwa [h.unique hsize']
  · intro hp
    exact ⟨size, h, hp⟩

/-- **More bytes are asked for** if the length is not there or announces more than there is. -/
theorem split_eq_none_iff :
    split limit bytes = .ok none ↔
      Unfinished bytes ∨ ∃ size, Heralds bytes size ∧ size ≤ limit ∧ bytes.length < size := by
  rcases cases_split bytes with h | ⟨first, field, n, more, rfl, hfield⟩ | ⟨hnone, herror⟩
  · exact iff_of_true (split_of_unfinished h) (.inl h)
  · have hsize : Heralds (first :: (field ++ more)) (1 + field.length + n) :=
      ⟨first, field, n, more, rfl, hfield, rfl⟩
    rw [split_of_spells hfield, splitBody_eq_none_iff, exists_heralds_iff hsize,
      List.length_cons, List.length_append]
    constructor
    · rintro ⟨hle, hshort⟩
      exact .inr ⟨hle, by omega⟩
    · rintro (hun | ⟨hle, hshort⟩)
      · exact absurd hsize hun.not_heralds
      · exact ⟨hle, by omega⟩
  · rw [herror]
    refine iff_of_false (by intro h; cases h) ?_
    rintro (hun | ⟨size, hsize, -⟩)
    · have hsplit : split limit bytes = .ok none := split_of_unfinished hun
      rw [herror] at hsplit
      cases hsplit
    · exact hnone size hsize

/-- **A packet is too large** if it is announced to be. -/
theorem split_eq_tooLarge_iff :
    split limit bytes = .error .packetTooLarge ↔ ∃ size, Heralds bytes size ∧ limit < size := by
  rcases cases_split bytes with h | ⟨first, field, n, more, rfl, hfield⟩ | ⟨hnone, herror⟩
  · rw [split_of_unfinished h]
    refine iff_of_false (by intro h; cases h) ?_
    rintro ⟨size, hsize, -⟩
    exact h.not_heralds hsize
  · rw [split_of_spells hfield, splitBody_eq_tooLarge_iff,
      exists_heralds_iff ⟨first, field, n, more, rfl, hfield, rfl⟩]
  · rw [herror]
    refine iff_of_false (by intro h; cases h) ?_
    rintro ⟨size, hsize, -⟩
    exact hnone size hsize

/-- **A frame is there** if it is there as a whole, and it is within the limit. -/
theorem split_eq_some_iff :
    split limit bytes = .ok (some (f, rest)) ↔
      ∃ field, bytes = f.first :: (field ++ (f.body ++ rest)) ∧
        VarInt.Spells field f.body.length ∧ 1 + field.length + f.body.length ≤ limit := by
  constructor
  · intro h
    rcases cases_split bytes with hun | ⟨first, field, n, more, rfl, hfield⟩ | ⟨-, herror⟩
    · rw [split_of_unfinished hun] at h
      cases h
    · rw [split_of_spells hfield, splitBody_eq_some_iff] at h
      obtain ⟨hle, rfl, rfl, rfl⟩ := h
      exact ⟨field, rfl, hfield, hle⟩
    · rw [herror] at h
      cases h
  · rintro ⟨field, rfl, hfield, hle⟩
    rw [split_of_spells hfield, splitBody_eq_some_iff]
    exact ⟨hle, rfl, rfl, rfl⟩

end Frame

/-! ### Bodies -/

namespace Reader

variable {α β : Type} {m : Reader α} {f : α → Reader β}

/-- The reader finds nothing too large. -/
def Spares (m : Reader α) : Prop := ∀ ⦃bytes e tail⦄, m bytes = .error e tail → e ≠ .packetTooLarge

theorem pure_spares (a : α) : Spares (pure a) := by
  intro bytes e tail h
  cases h

theorem throw_spares {e : DecodeError} (he : e ≠ .packetTooLarge) :
    Spares (throw e : Reader α) := by
  intro bytes e' tail h
  cases h
  exact he

theorem Spares.bind (hm : Spares m) (hf : ∀ a, Spares (f a)) : Spares (m >>= f) := by
  intro bytes e tail h
  simp only [Bind.bind, EStateM.bind] at h
  split at h
  · exact hf _ h
  · rename_i hfirst
    cases h
    exact hm hfirst

/-- What is read behind a check is spared if the check has another error. -/
theorem Spares.guard {c : Prop} [Decidable c] {e : DecodeError} {g : PUnit → Reader α}
    (he : e ≠ .packetTooLarge) (hm : Spares m) :
    Spares (if c then (throw e : Reader PUnit) >>= g else m) := by
  split
  · intro bytes e' tail h
    cases h
    exact he
  · exact hm

theorem take_spares (n : Nat) : Spares (take n) := by
  intro bytes e tail h
  simp only [take] at h
  split at h
  · cases h
    intro he
    cases he
  · cases h

theorem byte_spares : Spares byte := by
  intro bytes e tail h
  cases bytes with
  | nil =>
      cases h
      intro he
      cases he
  | cons b bytes => cases h

theorem rest_spares : Spares rest := by
  intro bytes e tail h
  cases h

theorem atEnd_spares : Spares atEnd := by
  intro bytes e tail h
  cases h

theorem varInt_spares : Spares varInt := by
  intro bytes e tail h
  simp only [varInt] at h
  split at h
  · cases h
  · rename_i hread
    cases h
    rcases VarInt.cases_of_readGroups hread with ⟨rfl, -⟩ | rfl <;> intro he <;> cases he

theorem twoBytes_spares : Spares twoBytes := (take_spares 2).bind fun _ => pure_spares _

theorem fourBytes_spares : Spares fourBytes := (take_spares 4).bind fun _ => pure_spares _

theorem binary_spares : Spares binary := twoBytes_spares.bind fun _ => take_spares _

theorem text_spares : Spares text := by
  refine binary_spares.bind fun field => ?_
  split
  · exact throw_spares (by decide)
  · split
    · exact throw_spares (by decide)
    · exact pure_spares _

end Reader

theorem ValueForm.spares (form : ValueForm) : form.read.Spares := by
  cases form with
  | byte => exact Reader.byte_spares
  | twoBytes => exact Reader.twoBytes_spares
  | fourBytes => exact Reader.fourBytes_spares
  | varInt => exact Reader.varInt_spares.bind fun _ => Reader.pure_spares _
  | text => exact Reader.text_spares
  | binary => exact Reader.binary_spares
  | textPair =>
      exact Reader.text_spares.bind fun _ => Reader.text_spares.bind fun _ => Reader.pure_spares _

theorem Property.spares : Reader.Spares Property.read := by
  refine Reader.byte_spares.bind fun c => ?_
  split
  · exact Reader.throw_spares (by intro h; cases h)
  · exact (ValueForm.spares _).bind fun _ => Reader.pure_spares _

namespace Properties

theorem ne_tooLarge_of_entriesFrom {seen : List Property} {bytes : Bytes} {e : DecodeError}
    (h : entriesFrom seen bytes = .error e) : e ≠ .packetTooLarge := by
  induction hn : bytes.length using Nat.strongRecOn generalizing seen bytes with
  | ind n ih =>
      rw [entriesFrom] at h
      split at h
      · cases h
      · split at h
        · rename_i e' tail hread
          have hlt := Property.read_shortens hread
          exact ih tail.length (by omega) h rfl
        · rename_i hread
          cases h
          exact Property.spares hread

theorem spares : Reader.Spares read := by
  refine Reader.varInt_spares.bind fun n => (Reader.take_spares n).bind fun body => ?_
  split
  · exact Reader.pure_spares _
  · rename_i hes
    exact Reader.throw_spares (ne_tooLarge_of_entriesFrom hes)

theorem readOptional_spares : Reader.Spares readOptional := by
  refine Reader.atEnd_spares.bind fun ended => ?_
  split
  · exact Reader.pure_spares _
  · exact spares

end Properties

theorem ConnAck.spares (flags : UInt8) : Reader.Spares (ConnAck.read flags) :=
  .guard (by decide) <| Reader.byte_spares.bind fun _ => .guard (by decide) <|
    Reader.byte_spares.bind fun _ => Properties.readOptional_spares.bind fun _ =>
      Reader.pure_spares _

theorem Publish.readId_spares (qos : QoS) : Reader.Spares (Publish.readId qos) := by
  rw [Publish.readId]
  split
  · exact Reader.pure_spares _
  · exact Reader.twoBytes_spares.bind fun _ => .guard (by decide) (Reader.pure_spares _)

theorem Publish.spares (flags : UInt8) : Reader.Spares (Publish.read flags) := by
  simp only [Publish.read]
  split
  · exact Reader.throw_spares (by intro h; cases h)
  · exact .guard (by decide) <| Reader.text_spares.bind fun _ => .guard (by decide) <|
      (Publish.readId_spares _).bind fun _ => Properties.spares.bind fun _ =>
        .guard (by decide) <| Reader.rest_spares.bind fun _ => Reader.pure_spares _

theorem Ack.spares (expected flags : UInt8) : Reader.Spares (Ack.read expected flags) := by
  refine .guard (by decide) <| Reader.twoBytes_spares.bind fun _ => Reader.Spares.bind ?_ fun _ =>
    Properties.readOptional_spares.bind fun _ => Reader.pure_spares _
  refine Reader.atEnd_spares.bind fun ended => ?_
  split
  · exact Reader.pure_spares _
  · exact Reader.byte_spares

theorem SubAck.spares (flags : UInt8) : Reader.Spares (SubAck.read flags) :=
  .guard (by decide) <| Reader.twoBytes_spares.bind fun _ => Properties.spares.bind fun _ =>
    Reader.rest_spares.bind fun _ => .guard (by decide) (Reader.pure_spares _)

theorem Disconnect.spares (flags : UInt8) : Reader.Spares (Disconnect.read flags) := by
  refine .guard (by decide) <| Reader.atEnd_spares.bind fun ended => ?_
  split
  · exact Reader.pure_spares _
  · exact Reader.byte_spares.bind fun _ => Properties.readOptional_spares.bind fun _ =>
      Reader.pure_spares _

/-- **A body is never found too large**, of whatever type it is. -/
theorem Packet.spares (type flags : UInt8) : Reader.Spares (Packet.reader type flags) := by
  unfold Packet.reader
  split
  · exact (ConnAck.spares flags).bind fun _ => Reader.pure_spares _
  · exact (Publish.spares flags).bind fun _ => Reader.pure_spares _
  · exact (Ack.spares 0 flags).bind fun _ => Reader.pure_spares _
  · exact (Ack.spares 0 flags).bind fun _ => Reader.pure_spares _
  · exact (Ack.spares 2 flags).bind fun _ => Reader.pure_spares _
  · exact (Ack.spares 0 flags).bind fun _ => Reader.pure_spares _
  · exact (SubAck.spares flags).bind fun _ => Reader.pure_spares _
  · exact .guard (by decide) (Reader.pure_spares _)
  · exact (Disconnect.spares flags).bind fun _ => Reader.pure_spares _
  · exact Reader.throw_spares (by intro h; cases h)

theorem Packet.ne_tooLarge_of_ofFrame {f : Frame} {e : DecodeError}
    (h : Packet.ofFrame f = .error e) : e ≠ .packetTooLarge := by
  simp only [Packet.ofFrame, Reader.value] at h
  split at h
  · cases h
  · rename_i hread
    cases h
    exact Packet.spares _ _ hread

/-! ### Decoders -/

namespace Decoder

variable {d : Decoder} {bytes : Bytes}

theorem decode_eq_none_iff : d.decode bytes = .ok none ↔ Frame.split d.limit bytes = .ok none := by
  simp only [decode]
  split
  · rename_i hsplit
    rw [hsplit]
    exact iff_of_false (by intro h; cases h) (by intro h; cases h)
  · rename_i hsplit
    exact iff_of_true rfl hsplit
  · rename_i hsplit
    rw [hsplit]
    split <;> exact iff_of_false (by intro h; cases h) (by intro h; cases h)

/-- **What is waiting is bounded**: it is less than a packet within the limit, or at most a type and
the beginning of a length. -/
theorem length_le_of_decode (h : d.decode bytes = .ok none) :
    bytes.length ≤ max (d.limit - 1) 4 := by
  rcases Frame.split_eq_none_iff.1 (decode_eq_none_iff.1 h) with hun | ⟨size, -, hle, hshort⟩
  · exact Nat.le_trans hun.length_le (Nat.le_max_right _ _)
  · exact Nat.le_trans (by omega) (Nat.le_max_left _ _)

/-- **The limit is exact**: what is announced to be larger is refused, and nothing else is. -/
theorem decode_eq_tooLarge_iff :
    d.decode bytes = .error .packetTooLarge ↔
      ∃ size, Frame.Heralds bytes size ∧ d.limit < size := by
  rw [← Frame.split_eq_tooLarge_iff]
  simp only [decode]
  split
  · rename_i hsplit
    rw [hsplit]
    constructor
    · intro h
      rw [Except.error.inj h]
    · intro h
      rw [Except.error.inj h]
  · rename_i hsplit
    rw [hsplit]
    exact iff_of_false (by intro h; cases h) (by intro h; cases h)
  · rename_i hsplit
    rw [hsplit]
    refine iff_of_false ?_ (by intro h; cases h)
    split
    · rename_i hpacket
      intro h
      exact Packet.ne_tooLarge_of_ofFrame hpacket (Except.error.inj h)
    · intro h
      cases h

end Decoder

end TopicBridge.Mqtt
