/-
**A stream is read the same however it is cut.**

Bytes come in as chunks of any size, and after each chunk everything is read that is there as a
whole.  A packet that can be read at the front of some bytes is read there whatever follows them,
and so is an error; only where more bytes are needed can more bytes make a difference.  Hence the
packets, the error that stops and the bytes that are left depend on the bytes alone.

Main definitions:

* `Mqtt.Decoder.Reads` — the packets at the front of some bytes, and what follows them;
* `Mqtt.Decoder.feed` — a further chunk comes in.

Main results:

* `VarInt.read_append`, `Frame.split_append_of_some`, `Decoder.decode_append_of_some`, … — what
  has been read is not changed by what follows;
* `Decoder.drain_append` — reading everything and going on with what is left is reading
  everything;
* `Decoder.foldl_feed` — **the outcome does not depend on the chunks**.
-/

import TopicBridge.Mqtt.Packet.Decode

set_option autoImplicit false

namespace TopicBridge.Mqtt

/-! ### Lengths -/

namespace VarInt

variable {groups n : Nat} {bytes rest : Bytes} {e : DecodeError}

theorem readGroups_append (h : readGroups groups bytes = .ok (n, rest)) (more : Bytes) :
    readGroups groups (bytes ++ more) = .ok (n, rest ++ more) := by
  induction groups generalizing bytes n with
  | zero => cases h
  | succ groups ih =>
      cases bytes with
      | nil => cases h
      | cons b tail =>
          simp only [readGroups, List.cons_append] at h ⊢
          split at h
          · rename_i hb
            cases h
            rw [if_pos hb]
          · rename_i hb
            rw [if_neg hb]
            split at h
            · rename_i hread
              cases h
              rw [ih hread]
            · cases h

/-- An error stays one, unless it is that bytes are missing. -/
theorem readGroups_append_of_error (h : readGroups groups bytes = .error e)
    (he : e ≠ .insufficientData) (more : Bytes) :
    readGroups groups (bytes ++ more) = .error e := by
  induction groups generalizing bytes with
  | zero => exact h
  | succ groups ih =>
      cases bytes with
      | nil =>
          cases h
          exact absurd rfl he
      | cons b tail =>
          simp only [readGroups, List.cons_append] at h ⊢
          split at h
          · cases h
          · rename_i hb
            rw [if_neg hb]
            split at h
            · cases h
            · rename_i hread
              cases h
              rw [ih hread]

theorem read_append (h : read bytes = .ok (n, rest)) (more : Bytes) :
    read (bytes ++ more) = .ok (n, rest ++ more) :=
  readGroups_append h more

theorem read_append_of_error (h : read bytes = .error e) (he : e ≠ .insufficientData)
    (more : Bytes) : read (bytes ++ more) = .error e :=
  readGroups_append_of_error h he more

theorem extent_add_length_of_readGroups (h : readGroups groups bytes = .ok (n, rest)) :
    extent bytes + rest.length = bytes.length := by
  induction groups generalizing bytes n with
  | zero => cases h
  | succ groups ih =>
      cases bytes with
      | nil => cases h
      | cons b tail =>
          simp only [readGroups] at h
          split at h
          · rename_i hb
            have hstop : ¬128 ≤ b := UInt8.not_le.2 hb
            cases h
            simp [extent, hstop, Nat.add_comm]
          · rename_i hb
            have hgo : 128 ≤ b := UInt8.not_lt.1 hb
            split at h
            · rename_i hread
              cases h
              have htail := ih hread
              simp only [extent, List.takeWhile_cons, hgo, decide_true, if_true,
                List.length_cons] at htail ⊢
              omega
            · cases h

/-- The bytes that a number takes are those that are not left behind it. -/
theorem extent_append (h : read bytes = .ok (n, rest)) (more : Bytes) :
    extent (bytes ++ more) = extent bytes := by
  have hlen := extent_add_length_of_readGroups h
  have hlen' := extent_add_length_of_readGroups (read_append h more)
  simp only [List.length_append] at hlen'
  omega

end VarInt

/-! ### Frames -/

namespace Frame

variable {limit extent length : Nat} {first : UInt8} {bytes rest : Bytes} {f : Frame}
  {e : DecodeError}

theorem splitBody_append_of_some
    (h : splitBody limit first extent length bytes = .ok (some (f, rest))) (more : Bytes) :
    splitBody limit first extent length (bytes ++ more) = .ok (some (f, rest ++ more)) := by
  simp only [splitBody, List.length_take] at h ⊢
  split at h
  · cases h
  · rename_i hlimit
    split at h
    · cases h
    · rename_i hall
      obtain ⟨rfl, rfl⟩ := Prod.mk.inj (Option.some.inj (Except.ok.inj h))
      have hle : length ≤ bytes.length := by omega
      have hall' : ¬min length (bytes ++ more).length < length := by
        rw [List.length_append]
        omega
      rw [if_neg hlimit, if_neg hall', List.take_append_of_le_length hle,
        List.drop_append_of_le_length hle]

/-- What is too large is so whatever follows. -/
theorem splitBody_append_of_error (h : splitBody limit first extent length bytes = .error e)
    (more : Bytes) : splitBody limit first extent length (bytes ++ more) = .error e := by
  simp only [splitBody] at h ⊢
  split at h
  · rename_i hlimit
    rw [if_pos hlimit]
    exact h
  · split at h <;> cases h

/-- A frame that is there as a whole is split off whatever follows. -/
theorem split_append_of_some (h : split limit bytes = .ok (some (f, rest))) (more : Bytes) :
    split limit (bytes ++ more) = .ok (some (f, rest ++ more)) := by
  cases bytes with
  | nil => cases h
  | cons first tail =>
      simp only [split, List.cons_append] at h ⊢
      split at h
      · rename_i hread
        rw [VarInt.read_append hread, VarInt.extent_append hread]
        exact splitBody_append_of_some h more
      · cases h
      · cases h

/-- A frame that is refused is refused whatever follows. -/
theorem split_append_of_error (h : split limit bytes = .error e) (more : Bytes) :
    split limit (bytes ++ more) = .error e := by
  cases bytes with
  | nil => cases h
  | cons first tail =>
      simp only [split, List.cons_append] at h ⊢
      split at h
      · rename_i hread
        rw [VarInt.read_append hread, VarInt.extent_append hread]
        exact splitBody_append_of_error h more
      · cases h
      · -- the length itself is wrong, which no further bytes can mend
        rename_i e' hne hread
        rw [VarInt.read_append_of_error hread hne]
        cases h
        split
        · rename_i heq
          cases heq
        · rename_i heq
          exact absurd (Except.error.inj heq) hne
        · rename_i heq
          rw [Except.error.inj heq]

end Frame

/-! ### Packets -/

namespace Decoder

variable {d : Decoder} {bytes rest : Bytes} {p : Packet} {e : DecodeError}

theorem decode_of_split {f : Frame} (h : Frame.split d.limit bytes = .ok (some (f, rest))) :
    d.decode bytes = (Packet.ofFrame f).map fun p => some (p, rest) := by
  simp only [decode, h]
  cases Packet.ofFrame f <;> rfl

/-- A packet that is there as a whole is read whatever follows. -/
theorem decode_append_of_some (h : d.decode bytes = .ok (some (p, rest))) (more : Bytes) :
    d.decode (bytes ++ more) = .ok (some (p, rest ++ more)) := by
  match hs : Frame.split d.limit bytes with
  | .error _ => simp [decode, hs] at h
  | .ok none => simp [decode, hs] at h
  | .ok (some (f, rest')) =>
      rw [decode_of_split hs] at h
      rw [decode_of_split (Frame.split_append_of_some hs more)]
      cases hf : Packet.ofFrame f with
      | error _ =>
          rw [hf] at h
          cases h
      | ok p' =>
          rw [hf] at h
          cases h
          rfl

/-- An error in a packet or in front of it stays whatever follows. -/
theorem decode_append_of_error (h : d.decode bytes = .error e) (more : Bytes) :
    d.decode (bytes ++ more) = .error e := by
  match hs : Frame.split d.limit bytes with
  | .error _ =>
      simp only [decode, hs, Frame.split_append_of_error hs] at h ⊢
      exact h
  | .ok none => simp [decode, hs] at h
  | .ok (some (f, rest)) =>
      rw [decode_of_split hs] at h
      rw [decode_of_split (Frame.split_append_of_some hs more)]
      cases hf : Packet.ofFrame f with
      | error _ =>
          rw [hf] at h
          exact h
      | ok _ =>
          rw [hf] at h
          cases h

end Decoder

/-! ### Reading everything -/

namespace Decoded

/-- Nothing has come in yet. -/
def nothing : Decoded := ⟨[], none, []⟩

/-- What the next attempt to read gives. -/
def next (r : Decoded) : Except DecodeError (Option (Packet × Bytes)) :=
  match r.error? with
  | some e => .error e
  | none => .ok none

end Decoded

namespace Decoder

variable {d : Decoder} {bytes mid rest : Bytes} {p : Packet} {ps : List Packet} {e : DecodeError}

/-- The packets `ps` stand at the front of some bytes, and `rest` is what follows them. -/
inductive Reads (d : Decoder) : Bytes → List Packet → Bytes → Prop where
  | nil {bytes : Bytes} : Reads d bytes [] bytes
  | cons {bytes mid rest : Bytes} {p : Packet} {ps : List Packet}
      (h : d.decode bytes = .ok (some (p, mid))) (hrest : Reads d mid ps rest) :
      Reads d bytes (p :: ps) rest

theorem drainFrom_of_none (seen : List Packet) (h : d.decode bytes = .ok none) :
    d.drainFrom seen bytes = ⟨seen.reverse, none, bytes⟩ := by
  rw [drainFrom]
  split <;> simp_all

theorem drainFrom_of_error (seen : List Packet) (h : d.decode bytes = .error e) :
    d.drainFrom seen bytes = ⟨seen.reverse, some e, bytes⟩ := by
  rw [drainFrom]
  split <;> simp_all

theorem drainFrom_of_some (seen : List Packet) (h : d.decode bytes = .ok (some (p, rest))) :
    d.drainFrom seen bytes = d.drainFrom (p :: seen) rest := by
  rw [drainFrom]
  split <;> simp_all

/-- What has been seen stands in front of what is read. -/
theorem drainFrom_eq (seen : List Packet) (bytes : Bytes) :
    d.drainFrom seen bytes =
      { d.drain bytes with packets := seen.reverse ++ (d.drain bytes).packets } := by
  induction hn : bytes.length using Nat.strongRecOn generalizing seen bytes with
  | ind n ih =>
      unfold drain
      match hd : d.decode bytes with
      | .error e => simp [drainFrom_of_error _ hd]
      | .ok none => simp [drainFrom_of_none _ hd]
      | .ok (some (p, rest)) =>
          have hlt := length_of_decode hd
          have hrest := fun seen => ih rest.length (by omega) seen rest rfl
          rw [drainFrom_of_some _ hd, drainFrom_of_some _ hd, hrest (p :: seen), hrest [p]]
          simp

theorem drain_of_none (h : d.decode bytes = .ok none) : d.drain bytes = ⟨[], none, bytes⟩ :=
  drainFrom_of_none [] h

theorem drain_of_error (h : d.decode bytes = .error e) : d.drain bytes = ⟨[], some e, bytes⟩ :=
  drainFrom_of_error [] h

theorem drain_of_some (h : d.decode bytes = .ok (some (p, rest))) :
    d.drain bytes = { d.drain rest with packets := p :: (d.drain rest).packets } := by
  have hfirst : d.drain bytes = d.drainFrom [p] rest := drainFrom_of_some [] h
  rw [hfirst, drainFrom_eq]
  simp

/-- Everything that is there as a whole has been read, up to the first error. -/
theorem drain_spec (d : Decoder) (bytes : Bytes) :
    d.Reads bytes (d.drain bytes).packets (d.drain bytes).rest ∧
      d.decode (d.drain bytes).rest = (d.drain bytes).next := by
  induction hn : bytes.length using Nat.strongRecOn generalizing bytes with
  | ind n ih =>
      match hd : d.decode bytes with
      | .error e =>
          rw [drain_of_error hd]
          exact ⟨.nil, hd⟩
      | .ok none =>
          rw [drain_of_none hd]
          exact ⟨.nil, hd⟩
      | .ok (some (p, rest)) =>
          have hlt := length_of_decode hd
          obtain ⟨hreads, hnext⟩ := ih rest.length (by omega) rest rfl
          rw [drain_of_some hd]
          exact ⟨.cons hd hreads, hnext⟩

/-! ### Chunks -/

/-- A further chunk comes in behind what is left of the others, and everything is read that is then
there as a whole.  An error does not keep the stream from being looked at again, but only the
packets in front of the first one count. -/
def feed (d : Decoder) (r : Decoded) (chunk : Bytes) : Decoded :=
  let found := d.drain (r.rest ++ chunk)
  { packets := if r.error?.isSome then r.packets else r.packets ++ found.packets
    error? := r.error?.or found.error?
    rest := found.rest }

/-- To read what has come in and go on with what is left is to read everything. -/
theorem drain_append (d : Decoder) (bytes chunk : Bytes) :
    d.drain (bytes ++ chunk) = d.feed (d.drain bytes) chunk := by
  induction hn : bytes.length using Nat.strongRecOn generalizing bytes with
  | ind n ih =>
      match hd : d.decode bytes with
      | .error e =>
          -- the same error stands in front of all that follows
          rw [drain_of_error hd, drain_of_error (decode_append_of_error hd chunk)]
          simp [feed, drain_of_error (decode_append_of_error hd chunk)]
      | .ok none =>
          rw [drain_of_none hd]
          simp [feed]
      | .ok (some (p, rest)) =>
          have hlt := length_of_decode hd
          rw [drain_of_some hd, drain_of_some (decode_append_of_some hd chunk),
            ih rest.length (by omega) rest rfl]
          cases he : (d.drain rest).error? <;> simp [feed, he]

theorem foldl_feed_drain (d : Decoder) (bytes : Bytes) (chunks : List Bytes) :
    chunks.foldl d.feed (d.drain bytes) = d.drain (bytes ++ chunks.flatten) := by
  induction chunks generalizing bytes with
  | nil => simp
  | cons chunk chunks ih =>
      rw [List.foldl_cons, ← drain_append, ih, List.flatten_cons, List.append_assoc]

/-- **The outcome does not depend on the chunks.**  However a byte string is cut, the packets in
front of the first error, the error and the bytes that are left are those of the whole string.
Only packets are taken from the bytes that have come in: what is left follows the last packet, and
there the next attempt finds that bytes are missing, or the error. -/
theorem foldl_feed (d : Decoder) (chunks : List Bytes) :
    let all := d.drain chunks.flatten
    chunks.foldl d.feed .nothing = all ∧ d.Reads chunks.flatten all.packets all.rest ∧
      d.decode all.rest = all.next := by
  have hnothing : d.drain [] = .nothing := drain_of_none rfl
  refine ⟨?_, drain_spec d chunks.flatten⟩
  rw [← hnothing, foldl_feed_drain, List.nil_append]

end Decoder

end TopicBridge.Mqtt
