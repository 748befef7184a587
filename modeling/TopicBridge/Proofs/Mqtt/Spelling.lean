/-
**What bytes spell.**

Which bytes stand for a value is said here without a reader: a number by its groups of seven bits,
of which there may be more than it needs; a text by its length and its UTF-8 form; an entry by its
code and its value; a property list by its length and its entries, in any order and any number of
times.  Against this the readers are held.  Each of them takes the bytes that spell a value, whatever
stands behind them, and takes no others; and where these bytes are cut short it finds that some are
missing, so that a value is never read of a part of them.

Main definitions:

* `Mqtt.VarInt.Groups`, `VarInt.Spells` — the bytes of a number;
* `Mqtt.ValueForm.Spells`, `Property.Spells` — the bytes of a value and of an entry;
* `Mqtt.Properties.Lists`, `Properties.Spells` — the bytes of some entries, and of a property list;
* `Mqtt.Reader.Recognizes` — a reader takes the bytes that spell a value, and no others.

Main results:

* `Reader.Recognizes.bind` — one field behind the other;
* `Reader.varInt_recognizes`, `ValueForm.recognizes`, `Property.recognizes` — numbers, values and
  entries are recognized;
* `Properties.recognizes` — **and so are property lists**.
-/

import Mathlib.Tactic.SplitIfs
import TopicBridge.Proofs.Mqtt.NormalForm

set_option autoImplicit false

namespace TopicBridge

/-! ### Numbers in two and in four bytes -/

namespace Bytes

theorem ofUInt16_toNat {bytes : Bytes} (h : bytes.length = 2) :
    ofUInt16 (UInt16.ofNat (toNat bytes)) = bytes := by
  obtain ⟨a, b, rfl⟩ := List.length_eq_two.1 h
  have ha := a.toNat_lt
  have hb := b.toNat_lt
  simp only [ofUInt16, toNat, List.foldl_cons, List.foldl_nil, List.cons.injEq, and_true,
    ← UInt8.toNat_inj]
  simp [Nat.shiftRight_eq_div_pow]
  omega

theorem ofUInt32_toNat {bytes : Bytes} (h : bytes.length = 4) :
    ofUInt32 (UInt32.ofNat (toNat bytes)) = bytes := by
  match bytes, h with
  | [a, b, c, d], _ =>
    have ha := a.toNat_lt
    have hb := b.toNat_lt
    have hc := c.toNat_lt
    have hd := d.toNat_lt
    simp only [ofUInt32, toNat, List.foldl_cons, List.foldl_nil, List.cons.injEq, and_true,
      ← UInt8.toNat_inj]
    simp [Nat.shiftRight_eq_div_pow]
    omega

end Bytes

namespace Mqtt

/-! ### Variable byte integers -/

namespace VarInt

/-- The bytes are groups of seven bits of a number, the lowest first; all but the last of them are
marked as continued. -/
inductive Groups : Bytes → Nat → Prop where
  | last {b : UInt8} (h : b < 128) : Groups [b] b.toNat
  | more {b : UInt8} {bytes : Bytes} {n : Nat} (h : 128 ≤ b) (hrest : Groups bytes n) :
      Groups (b :: bytes) (b.toNat - 128 + 128 * n)

/-- The bytes spell a number, in at most four groups. -/
def Spells (bytes : Bytes) (n : Nat) : Prop := Groups bytes n ∧ bytes.length ≤ 4

variable {bytes front part rest : Bytes} {groups n : Nat}

theorem Groups.ne_nil (h : Groups bytes n) : bytes ≠ [] := by
  cases h <;> exact List.cons_ne_nil _ _

theorem readGroups_of_groups (h : Groups front n) (hlen : front.length ≤ groups) (rest : Bytes) :
    readGroups groups (front ++ rest) = .ok (n, rest) := by
  induction h generalizing groups with
  | last hb =>
      obtain ⟨groups, rfl⟩ := Nat.exists_eq_add_one.2 hlen
      rw [List.singleton_append, readGroups, if_pos hb]
  | more hb _ ih =>
      rw [List.length_cons] at hlen
      obtain ⟨groups, rfl⟩ := Nat.exists_eq_add_one.2 (Nat.lt_of_lt_of_le (Nat.succ_pos _) hlen)
      rw [List.cons_append, readGroups, if_neg (UInt8.not_lt.2 hb), ih (by omega)]

theorem exists_groups_of_readGroups (h : readGroups groups bytes = .ok (n, rest)) :
    ∃ front, bytes = front ++ rest ∧ Groups front n ∧ front.length ≤ groups := by
  induction groups generalizing bytes n with
  | zero => cases h
  | succ groups ih =>
      cases bytes with
      | nil => cases h
      | cons b tail =>
          simp only [readGroups] at h
          split at h
          · rename_i hb
            cases h
            exact ⟨[b], rfl, .last hb, by simp⟩
          · rename_i hb
            split at h
            · rename_i hread
              cases h
              obtain ⟨front, rfl, hfront, hlen⟩ := ih hread
              refine ⟨b :: front, rfl, .more (UInt8.not_lt.1 hb) hfront, ?_⟩
              rw [List.length_cons]
              omega
            · cases h

/-- Where the groups of a number are cut short, bytes are missing. -/
theorem readGroups_of_part (h : Groups bytes n) (hlen : bytes.length ≤ groups)
    (hpart : part <+: bytes) (hshort : part.length < bytes.length) :
    readGroups groups part = .error .insufficientData := by
  induction h generalizing groups part with
  | last hb =>
      rw [List.length_singleton] at hlen hshort
      obtain ⟨groups, rfl⟩ := Nat.exists_eq_add_one.2 hlen
      rw [List.length_eq_zero_iff.1 (Nat.lt_one_iff.1 hshort)]
      rfl
  | more hb _ ih =>
      rw [List.length_cons] at hlen hshort
      obtain ⟨groups, rfl⟩ := Nat.exists_eq_add_one.2 (Nat.lt_of_lt_of_le (Nat.succ_pos _) hlen)
      cases part with
      | nil => rfl
      | cons b' part =>
          obtain ⟨rfl, htail⟩ := List.cons_prefix_cons.1 hpart
          rw [List.length_cons] at hshort
          rw [readGroups, if_neg (UInt8.not_lt.2 hb), ih (by omega) htail (by omega)]

/-- A number is read of just the bytes that spell it. -/
theorem read_eq_ok_iff :
    read bytes = .ok (n, rest) ↔ ∃ front, bytes = front ++ rest ∧ Spells front n := by
  constructor
  · exact exists_groups_of_readGroups
  · rintro ⟨front, rfl, hgroups, hlen⟩
    exact readGroups_of_groups hgroups hlen rest

end VarInt

/-! ### Readers -/

namespace Reader

variable {α β : Type} {m : Reader α} {f : α → Reader β} {P P' : Bytes → α → Prop}
  {Q : α → Bytes → β → Prop}

/-- The reader takes the bytes that spell a value, whatever stands behind them, and no others; and
where they are cut short it finds that bytes are missing. -/
structure Recognizes (m : Reader α) (spells : Bytes → α → Prop) : Prop where
  takes : ∀ {bytes a}, spells bytes a → Takes m bytes a
  spelled : ∀ {bytes a tail}, m bytes = .ok a tail →
    ∃ front, bytes = front ++ tail ∧ spells front a
  missing : ∀ {bytes a part}, spells bytes a → part <+: bytes → part.length < bytes.length →
    ∃ tail, m part = .error .insufficientData tail

theorem Recognizes.of_iff (h : Recognizes m P) (hiff : ∀ bytes a, P' bytes a ↔ P bytes a) :
    Recognizes m P' := by
  have hsame : P' = P := by
    funext bytes a
    exact propext (hiff bytes a)
  rwa [hsame]

theorem pure_recognizes (a : α) : Recognizes (pure a) fun bytes b => bytes = [] ∧ b = a where
  takes := by
    rintro bytes b ⟨rfl, rfl⟩ more
    rfl
  spelled := by
    intro bytes b tail h
    obtain ⟨rfl, rfl⟩ := of_pure h
    exact ⟨[], rfl, rfl, rfl⟩
  missing := by
    rintro bytes b part ⟨rfl, rfl⟩ - hshort
    exact absurd hshort (Nat.not_lt_zero _)

theorem throw_recognizes (e : DecodeError) :
    Recognizes (throw e : Reader α) fun _ _ => False where
  takes h := h.elim
  spelled h := by cases h
  missing h := h.elim

theorem bind_of_error {bytes tail : Bytes} {e : DecodeError} (h : m bytes = .error e tail) :
    (m >>= f) bytes = .error e tail := by
  simp only [bind, EStateM.bind, h]

/-- One field behind the other: the bytes of both are those of the one and then those of the
other. -/
theorem Recognizes.bind (hm : Recognizes m P) (hf : ∀ a, Recognizes (f a) (Q a)) :
    Recognizes (m >>= f) fun bytes b =>
      ∃ a front back, bytes = front ++ back ∧ P front a ∧ Q a back b where
  takes := by
    rintro bytes b ⟨a, front, back, rfl, hfront, hback⟩
    exact (hm.takes hfront).bind ((hf a).takes hback)
  spelled := by
    intro bytes b tail h
    obtain ⟨a, mid, hfirst, hsecond⟩ := exists_of_bind h
    obtain ⟨front, rfl, hfront⟩ := hm.spelled hfirst
    obtain ⟨back, rfl, hback⟩ := (hf a).spelled hsecond
    exact ⟨front ++ back, by rw [List.append_assoc], a, front, back, rfl, hfront, hback⟩
  missing := by
    rintro bytes b part ⟨a, front, back, rfl, hfront, hback⟩ hpart hshort
    rcases Nat.lt_or_ge part.length front.length with hlt | hge
    · -- the first field is not there as a whole
      have hfirst :=
        List.prefix_of_prefix_length_le hpart (List.prefix_append _ _) (Nat.le_of_lt hlt)
      obtain ⟨tail, herror⟩ := hm.missing hfront hfirst hlt
      exact ⟨tail, bind_of_error herror⟩
    · obtain ⟨rest, rfl⟩ := List.prefix_of_prefix_length_le (List.prefix_append _ _) hpart hge
      rw [List.prefix_append_right_inj] at hpart
      rw [List.length_append, List.length_append] at hshort
      obtain ⟨tail, herror⟩ := (hf a).missing hback hpart (by omega)
      exact ⟨tail, by rw [(hm.takes hfront).bind_append, herror]⟩

/-- What is made of a field is spelled as the field is. -/
theorem Recognizes.map (hm : Recognizes m P) (g : α → β) :
    Recognizes (m >>= fun a => pure (g a)) fun bytes b => ∃ a, P bytes a ∧ b = g a := by
  refine (hm.bind fun a => pure_recognizes (g a)).of_iff ?_
  intro bytes b
  constructor
  · rintro ⟨a, hspells, rfl⟩
    exact ⟨a, bytes, [], by rw [List.append_nil], hspells, rfl, rfl⟩
  · rintro ⟨a, front, back, rfl, hfront, rfl, rfl⟩
    exact ⟨a, by rwa [List.append_nil], rfl⟩

theorem take_recognizes (n : Nat) :
    Recognizes (take n) fun bytes a => bytes = a ∧ a.length = n where
  takes := by
    rintro bytes a ⟨rfl, rfl⟩
    exact takes_take bytes
  spelled := by
    intro bytes a tail h
    simp only [take] at h
    split at h
    · cases h
    · rename_i hall
      cases h
      refine ⟨bytes.take n, (List.take_append_drop n bytes).symm, rfl, ?_⟩
      rw [List.length_take] at hall ⊢
      omega
  missing := by
    rintro bytes a part ⟨rfl, rfl⟩ - hshort
    refine ⟨part, ?_⟩
    simp only [take]
    rw [if_pos (by rw [List.length_take]; omega)]

theorem byte_recognizes : Recognizes byte fun bytes b => bytes = [b] where
  takes := by
    rintro bytes b rfl
    exact takes_byte b
  spelled := by
    intro bytes b tail h
    exact ⟨[b], of_byte h, rfl⟩
  missing := by
    rintro bytes b part rfl - hshort
    rw [List.length_eq_zero_iff.1 (Nat.lt_one_iff.1 hshort)]
    exact ⟨[], rfl⟩

theorem twoBytes_recognizes : Recognizes twoBytes fun bytes n => bytes = Bytes.ofUInt16 n := by
  refine ((take_recognizes 2).map _).of_iff ?_
  intro bytes n
  constructor
  · rintro rfl
    refine ⟨_, ⟨rfl, Bytes.length_ofUInt16 n⟩, ?_⟩
    rw [Bytes.toNat_ofUInt16, UInt16.ofNat_toNat]
  · rintro ⟨field, ⟨rfl, hlen⟩, rfl⟩
    exact (Bytes.ofUInt16_toNat hlen).symm

theorem fourBytes_recognizes : Recognizes fourBytes fun bytes n => bytes = Bytes.ofUInt32 n := by
  refine ((take_recognizes 4).map _).of_iff ?_
  intro bytes n
  constructor
  · rintro rfl
    refine ⟨_, ⟨rfl, Bytes.length_ofUInt32 n⟩, ?_⟩
    rw [Bytes.toNat_ofUInt32, UInt32.ofNat_toNat]
  · rintro ⟨field, ⟨rfl, hlen⟩, rfl⟩
    exact (Bytes.ofUInt32_toNat hlen).symm

theorem varInt_recognizes : Recognizes varInt VarInt.Spells where
  takes := by
    intro bytes n h more
    have hread : VarInt.read (bytes ++ more) = .ok (n, more) :=
      VarInt.read_eq_ok_iff.2 ⟨bytes, rfl, h⟩
    simp only [varInt, hread]
  spelled h := VarInt.read_eq_ok_iff.1 (read_of_varInt h)
  missing := by
    rintro bytes n part ⟨hgroups, hlen⟩ hpart hshort
    have hread : VarInt.read part = .error .insufficientData :=
      VarInt.readGroups_of_part hgroups hlen hpart hshort
    exact ⟨part, by simp only [varInt, hread]⟩

/-- The bytes are some others behind their number in two bytes. -/
def SpellsBinary (bytes field : Bytes) : Prop :=
  field.length ≤ 65535 ∧ bytes = Bytes.ofUInt16 (UInt16.ofNat field.length) ++ field

theorem binary_recognizes : Recognizes binary SpellsBinary := by
  refine (twoBytes_recognizes.bind fun n => take_recognizes n.toNat).of_iff ?_
  intro bytes field
  constructor
  · rintro ⟨hlen, rfl⟩
    have hnat : (UInt16.ofNat field.length).toNat = field.length :=
      UInt16.toNat_ofNat_of_lt' (Nat.lt_of_le_of_lt hlen (by decide))
    exact ⟨_, _, field, rfl, rfl, rfl, hnat.symm⟩
  · rintro ⟨n, front, back, rfl, rfl, rfl, hlen⟩
    have hlt := n.toNat_lt
    refine ⟨by omega, ?_⟩
    rw [hlen, UInt16.ofNat_toNat]

/-- The bytes are the UTF-8 form of a text, in which U+0000 does not occur, behind its length. -/
def SpellsText (bytes : Bytes) (s : String) : Prop :=
  '\x00' ∉ s.toList ∧ SpellsBinary bytes (Bytes.ofString s)

theorem text_recognizes : Recognizes text SpellsText := by
  refine (binary_recognizes.bind (Q := fun field bytes s =>
    bytes = [] ∧ '\x00' ∉ s.toList ∧ field = Bytes.ofString s) ?_).of_iff ?_
  · -- the text of a field, if it is one, is the only text that the field can be the form of
    intro field
    split
    · rename_i htext
      refine (throw_recognizes _).of_iff ?_
      intro bytes s
      refine iff_false_intro ?_
      rintro ⟨-, -, rfl⟩
      rw [Bytes.text?_ofString] at htext
      cases htext
    · rename_i t htext
      obtain rfl : Bytes.ofString t = field := Bytes.ofString_of_text? htext
      have hsame : ∀ {s}, Bytes.ofString t = Bytes.ofString s → s = t := by
        intro s h
        rw [h, Bytes.text?_ofString] at htext
        exact Option.some.inj htext
      split
      · rename_i hzero
        rw [List.contains_iff_mem, Bytes.zero_mem_ofString_iff] at hzero
        refine (throw_recognizes _).of_iff ?_
        intro bytes s
        refine iff_false_intro ?_
        rintro ⟨-, hnul, h⟩
        obtain rfl := hsame h
        exact hnul hzero
      · rename_i hzero
        rw [List.contains_iff_mem, Bytes.zero_mem_ofString_iff] at hzero
        refine (pure_recognizes t).of_iff ?_
        intro bytes s
        constructor
        · rintro ⟨rfl, -, h⟩
          exact ⟨rfl, hsame h⟩
        · rintro ⟨rfl, rfl⟩
          exact ⟨rfl, hzero, rfl⟩
  · intro bytes s
    constructor
    · rintro ⟨hnul, hbytes⟩
      exact ⟨_, bytes, [], by rw [List.append_nil], hbytes, rfl, hnul, rfl⟩
    · rintro ⟨field, front, back, rfl, hfront, rfl, hnul, rfl⟩
      rw [List.append_nil]
      exact ⟨hnul, hfront⟩

end Reader

/-! ### Values and entries -/

/-- The bytes that spell a value. -/
def ValueForm.Spells : (form : ValueForm) → Bytes → form.Value → Prop
  | byte, bytes, v => bytes = [v]
  | twoBytes, bytes, v => bytes = Bytes.ofUInt16 v
  | fourBytes, bytes, v => bytes = Bytes.ofUInt32 v
  | varInt, bytes, v => VarInt.Spells bytes (UInt32.toNat v)
  | text, bytes, v => Reader.SpellsText bytes v
  | binary, bytes, v => Reader.SpellsBinary bytes v
  | textPair, bytes, (key, value) =>
    ∃ front back, bytes = front ++ back ∧ Reader.SpellsText front key ∧ Reader.SpellsText back value

/-- A value is read of just the bytes that spell it. -/
theorem ValueForm.recognizes (form : ValueForm) : Reader.Recognizes form.read form.Spells := by
  cases form with
  | byte => exact Reader.byte_recognizes
  | twoBytes => exact Reader.twoBytes_recognizes
  | fourBytes => exact Reader.fourBytes_recognizes
  | varInt =>
      refine (Reader.varInt_recognizes.map UInt32.ofNat).of_iff ?_
      intro bytes v
      constructor
      · intro h
        exact ⟨_, h, UInt32.ofNat_toNat.symm⟩
      · rintro ⟨n, h, rfl⟩
        have hread := VarInt.read_eq_ok_iff.2 ⟨bytes, (List.append_nil bytes).symm, h⟩
        have hnat := VarInt.toNat_ofNat (VarInt.le_maxValue_of_read hread)
        simp only [Spells]
        rwa [hnat]
  | text => exact Reader.text_recognizes
  | binary => exact Reader.binary_recognizes
  | textPair =>
      refine (Reader.text_recognizes.bind fun key => Reader.text_recognizes.map _).of_iff ?_
      rintro bytes ⟨key, value⟩
      constructor
      · rintro ⟨front, back, rfl, hkey, hvalue⟩
        exact ⟨key, front, back, rfl, hkey, value, hvalue, rfl⟩
      · rintro ⟨key', front, back, rfl, hkey, value', hvalue, hpair⟩
        obtain ⟨rfl, rfl⟩ := Prod.mk.inj hpair
        exact ⟨front, back, rfl, hkey, hvalue⟩

namespace Property

/-- The bytes that spell an entry: the code of its identifier and the bytes of its value. -/
def Spells (bytes : Bytes) (e : Property) : Prop :=
  ∃ value, bytes = e.id.code :: value ∧ e.id.form.Spells value e.value

/-- **An entry is read of just the bytes that spell it.** -/
theorem recognizes : Reader.Recognizes read Spells := by
  refine (Reader.byte_recognizes.bind (Q := fun c bytes e =>
    e.id.code = c ∧ e.id.form.Spells bytes e.value) ?_).of_iff ?_
  · intro c
    split
    · rename_i hid
      refine (Reader.throw_recognizes _).of_iff ?_
      intro bytes e
      refine iff_false_intro ?_
      rintro ⟨rfl, -⟩
      rw [PropertyId.ofCode?_code] at hid
      cases hid
    · rename_i id hid
      refine ((ValueForm.recognizes id.form).map (Property.mk id)).of_iff ?_
      intro bytes e
      constructor
      · rintro ⟨hcode, hvalue⟩
        rw [← hcode, PropertyId.ofCode?_code] at hid
        obtain rfl := Option.some.inj hid
        exact ⟨e.value, hvalue, rfl⟩
      · rintro ⟨v, hvalue, rfl⟩
        exact ⟨PropertyId.code_of_ofCode? hid, hvalue⟩
  · intro bytes e
    constructor
    · rintro ⟨value, rfl, hvalue⟩
      exact ⟨e.id.code, [e.id.code], value, rfl, rfl, rfl, hvalue⟩
    · rintro ⟨c, front, value, rfl, rfl, rfl, hvalue⟩
      exact ⟨value, rfl, hvalue⟩

end Property

/-! ### Property lists -/

namespace Properties

/-- The bytes are entries, one behind the other. -/
inductive Lists : Bytes → List Property → Prop where
  | nil : Lists [] []
  | cons {entry bytes : Bytes} {e : Property} {es : List Property} (he : Property.Spells entry e)
      (hes : Lists bytes es) : Lists (entry ++ bytes) (e :: es)

/-- The bytes spell a property list: its length, in any number of groups, and its entries. -/
def Spells (bytes : Bytes) (p : Properties) : Prop :=
  ∃ lead body es, bytes = lead ++ body ∧ VarInt.Spells lead body.length ∧ Lists body es ∧
    p = ofList es

variable {bytes body : Bytes} {seen es : List Property} {e : DecodeError}

/-- Entries are read one behind the other, and then what stands behind them. -/
theorem entriesFrom_of_lists (h : Lists bytes es) (seen : List Property) (more : Bytes) :
    entriesFrom seen (bytes ++ more) = entriesFrom (es.reverse ++ seen) more := by
  induction h generalizing seen with
  | nil => rfl
  | cons he _ ih =>
      rw [List.append_assoc, entriesFrom_of_ok (Property.recognizes.takes he _), ih,
        List.reverse_cons, List.append_assoc, List.singleton_append]

theorem entries_of_lists (h : Lists bytes es) : entries bytes = .ok es := by
  have hall := entriesFrom_of_lists h [] []
  rw [List.append_nil, List.append_nil, entriesFrom_nil, List.reverse_reverse] at hall
  exact hall

/-- What is read is entries, one behind the other. -/
theorem exists_lists_of_entriesFrom {all : List Property} (h : entriesFrom seen bytes = .ok all) :
    ∃ es, all = seen.reverse ++ es ∧ Lists bytes es := by
  induction hn : bytes.length using Nat.strongRecOn generalizing seen bytes with
  | ind n ih =>
      by_cases hne : bytes = []
      · rw [hne, entriesFrom_nil] at h
        obtain rfl := Except.ok.inj h
        refine ⟨[], (List.append_nil _).symm, ?_⟩
        rw [hne]
        exact .nil
      · obtain ⟨e, tail, he, htail⟩ := exists_of_entriesFrom hne h
        have hlt := Property.read_shortens he
        obtain ⟨entry, rfl, hentry⟩ := Property.recognizes.spelled he
        obtain ⟨es, rfl, hes⟩ := ih tail.length (by omega) htail rfl
        refine ⟨e :: es, ?_, .cons hentry hes⟩
        rw [List.reverse_cons, List.append_assoc, List.singleton_append]

theorem entries_eq_ok_iff : entries bytes = .ok es ↔ Lists bytes es := by
  constructor
  · intro h
    obtain ⟨es', hsame, hlists⟩ := exists_lists_of_entriesFrom h
    obtain rfl : es = es' := hsame
    exact hlists
  · exact entries_of_lists

/-- **A property list is read of just the bytes that spell it.** -/
theorem recognizes : Reader.Recognizes read Spells := by
  refine (Reader.varInt_recognizes.bind fun n => (Reader.take_recognizes n).bind
    (Q := fun body bytes p => bytes = [] ∧ ∃ es, Lists body es ∧ p = ofList es) ?_).of_iff ?_
  · intro body
    split
    · rename_i es hes
      refine (Reader.pure_recognizes (ofList es)).of_iff ?_
      intro bytes p
      refine and_congr_right fun _ => ?_
      constructor
      · rintro ⟨es', hes', rfl⟩
        obtain rfl := Except.ok.inj (hes.symm.trans (entries_of_lists hes'))
        rfl
      · rintro rfl
        exact ⟨es, entries_eq_ok_iff.1 hes, rfl⟩
    · rename_i e hes
      refine (Reader.throw_recognizes e).of_iff ?_
      intro bytes p
      refine iff_false_intro ?_
      rintro ⟨-, es, hlists, -⟩
      rw [entries_of_lists hlists] at hes
      cases hes
  · intro bytes p
    constructor
    · rintro ⟨lead, body, es, rfl, hlead, hes, rfl⟩
      exact ⟨_, lead, body, rfl, hlead, body, body, [], (List.append_nil _).symm, ⟨rfl, rfl⟩, rfl,
        es, hes, rfl⟩
    · rintro ⟨n, lead, back, rfl, hlead, body, front, rest, rfl, ⟨rfl, rfl⟩, rfl, es, hes, rfl⟩
      exact ⟨lead, front, es, by rw [List.append_nil], hlead, hes, rfl⟩

theorem Spells.ne_nil {p : Properties} (h : Spells bytes p) : bytes ≠ [] := by
  obtain ⟨lead, body, es, rfl, hlead, -⟩ := h
  exact List.append_ne_nil_of_left_ne_nil hlead.1.ne_nil _

end Properties

end Mqtt

end TopicBridge
