/-
**A queue loses only what it reports.**

One brings elements to a queue and another takes them, each at his own pace, and the queue may be
closed at any time.  What has been accepted leaves the queue in the order in which it came: it is
taken, or dropped for want of room.  Only the oldest element is ever dropped, and only if none has
been taken all the time that the one who brings has waited.

Who takes looks for an element before he asks whether the queue is closed.  If an element comes in
between, and the queue is closed then, he learns that nothing will come, and the element stays in
the queue.  This is the only way in which he can go away from a queue that is not empty.

None of this depends on the bells.  They make sure that nobody sleeps while there is something to
do, and a ring too many does no harm.

Main definitions:

* `Handoff.Step` — a step, with one case for every thing that may be done;
* `Handoff.Move`, `Handoff.Run` — a step with all that it depends on, and the runs;
* `Handoff.accepted`, `Handoff.popped`, `Handoff.evicted`, `Handoff.exits` — what has come into the
  queue, and what has left it;
* `Handoff.Overlooks` — what he does not see who has looked and has still to ask;
* `Handoff.Delivers` — what a queue promises to its two ends;
* `Handoff.Alone` — what comes of steps that nobody interrupts.

Main results:

* `Handoff.Run.alert` — nobody sleeps over a change that concerns him;
* `Handoff.Run.overlooks` — what is in the queue when he asks has come in since he has looked;
* `Handoff.Run.delivers` — **a queue keeps its promise after every run**;
* `Handoff.ends_over_element` — somebody goes away from a closed queue with an element in it;
* `Handoff.alone_push`, `Handoff.alone_bring`, `Handoff.alone_pop` — an end that nobody interrupts
  makes one attempt at the queue.
-/

import TopicBridge.Session.Handoff
import TopicBridge.Proofs.Session.SubscriberRun

set_option autoImplicit false

namespace TopicBridge

/-! ### Attempts -/

namespace Queue

variable {α : Type} {q r : Queue α} {a : α}

theorem hasRoom_eq_false_iff : q.hasRoom = false ↔ ¬ q.items.length < q.capacity := by
  simp [hasRoom]

/-- Where an attempt after the time for waiting does not fail, it does what force does. -/
theorem force_of_push? {o : PushOutcome} (ho : q.closed = false)
    (h : q.push? a true = some (o, r)) : q.force a = (o, r) := by
  unfold push? at h
  unfold force
  rw [if_neg (by simp [ho])] at h
  split at h
  · rename_i hr
    rw [dif_pos hr]
    exact Option.some.inj h
  · rename_i hr
    rw [dif_neg hr]
    exact Option.some.inj h

/-- One attempt to take an element is to look for one and, if there is none, to ask whether the
queue is closed. -/
theorem pop?_eq_some_iff {item : Option α} :
    q.pop? = some (item, r) ↔
      (∃ a, item = some a ∧ q.tryPop? = some (a, r)) ∨
        item = none ∧ q.tryPop? = none ∧ q.closed = true ∧ r = q := by
  unfold pop?
  constructor
  · intro h
    split at h
    · rename_i a rest hp
      obtain ⟨rfl, rfl⟩ := Prod.mk.inj (Option.some.inj h)
      exact .inl ⟨a, rfl, hp⟩
    · rename_i hp
      split_ifs at h with hc
      obtain ⟨rfl, rfl⟩ := Prod.mk.inj (Option.some.inj h)
      exact .inr ⟨rfl, hp, hc, rfl⟩
  · rintro (⟨a, rfl, hp⟩ | ⟨rfl, hp, hc, rfl⟩)
    · rw [hp]
    · rw [hp, if_pos hc]

end Queue

/-! ### Listening -/

namespace Bell

variable {b : Bell}

theorem listener_listen_ne_away : b.listen.listener ≠ .away := by
  rw [listen]
  split_ifs <;> nofun

/-- Whoever listens is awake once the bell has been rung. -/
theorem isAwake_ring (h : b.listener ≠ .away) : b.ring.isAwake = true := by
  obtain ⟨pending, listener⟩ := b
  cases listener with
  | away => exact absurd rfl h
  | asleep | called | roused | hearing => rfl

theorem isAwake_ringAll (h : b.listener ≠ .away) : b.ringAll.isAwake = true := by
  obtain ⟨pending, listener⟩ := b
  cases listener with
  | away => exact absurd rfl h
  | asleep | called | roused | hearing => rfl

theorem listener_ring_ne_away (h : b.listener ≠ .away) : b.ring.listener ≠ .away := by
  rw [ring]
  split_ifs
  · nofun
  · exact h

theorem listener_ringAll_ne_away (h : b.listener ≠ .away) : b.ringAll.listener ≠ .away := by
  rw [ringAll]
  split_ifs
  · nofun
  · exact h

/-- Only a bell that is rung for everybody rouses. -/
theorem roused_of_ring (h : b.ring.listener = .roused) : b.listener = .roused := by
  rw [ring] at h
  split_ifs at h
  exact h

end Bell

namespace Handoff

variable {α : Type}

/-! ### Steps -/

/-- The element that is still to be put in. -/
def element? (x : Handoff α) : Option α :=
  match x.bringer with
  | .asking a _ | .coming a _ | .trying a _ | .waiting a _ | .forcing a => some a
  | .away | .telling => none

/-- The one who brings an element goes on with it. -/
inductive Proceeds (now : Millis) (x : Handoff α) : Bringer α → Bell → Prop where
  | admitted {a : α} {deadline : Millis} (hb : x.bringer = .asking a deadline)
      (ho : x.queue.closed = false) : Proceeds now x (.coming a deadline) x.room
  | listened {a : α} {deadline : Millis} (hb : x.bringer = .coming a deadline) :
      Proceeds now x (.trying a deadline) x.room.listen
  | stayed {a : α} {deadline : Millis} (hb : x.bringer = .trying a deadline)
      (hf : x.queue.hasRoom = false) : Proceeds now x (.waiting a deadline) x.room
  | woken {a : α} {deadline : Millis} (hb : x.bringer = .waiting a deadline)
      (hw : x.room.isAwake = true) : Proceeds now x (.asking a deadline) x.room.hear
  | gaveUp {a : α} {deadline : Millis} (hb : x.bringer = .waiting a deadline)
      (hd : deadline ≤ now) (hw : x.room.isAwake = false) :
      Proceeds now x (.forcing a) x.room.leave

/-- The one who comes for an element is still without one. -/
inductive Seeks (x : Handoff α) : Act α → Taker → Bell → Prop where
  | came (ht : x.taker = .away) : Seeks x .pop .coming x.more
  | listened (ht : x.taker = .coming) : Seeks x .take .trying x.more.listen
  | looked (ht : x.taker = .trying) (he : x.queue.items = []) : Seeks x .take .asking x.more
  | stayed (ht : x.taker = .asking) (ho : x.queue.closed = false) : Seeks x .take .waiting x.more
  | woken (ht : x.taker = .waiting) (hw : x.more.isAwake = true) :
      Seeks x .take .coming x.more.hear
  | left (ht : x.taker = .waiting) : Seeks x .cancel .away x.more.leave

/-- What a step can do. -/
inductive Step (now : Millis) (x : Handoff α) : Act α → Handoff α → Option (Settled α) → Prop where
  | came {a : α} {wait : Millis} (hb : x.bringer = .away) :
      Step now x (.push a wait) { x with bringer := .asking a (now + wait) } none
  | proceeds {bringer : Bringer α} {room : Bell} (h : Proceeds now x bringer room) :
      Step now x .bring { x with bringer, room } none
  | refused {a : α} {deadline : Millis} (hb : x.bringer = .asking a deadline)
      (hc : x.queue.closed = true) :
      Step now x .bring { x with bringer := .away } (some (.pushed .closed))
  | queued {a : α} (hb : (∃ deadline, x.bringer = .trying a deadline) ∨ x.bringer = .forcing a)
      (hr : x.queue.items.length < x.queue.capacity) :
      Step now x .bring { x with queue := x.queue.append a hr, bringer := .telling }
        (some (.pushed .queued))
  | dropped {a : α} (hb : x.bringer = .forcing a) (hf : x.queue.hasRoom = false) :
      Step now x .bring { x with queue := x.queue.evict a, bringer := .telling }
        (some (.pushed .droppedOldest))
  | told (hb : x.bringer = .telling) :
      Step now x .bring { x with room := x.room.leave, more := x.more.ring, bringer := .away } none
  | seeks {act : Act α} {taker : Taker} {more : Bell} (h : Seeks x act taker more) :
      Step now x act { x with taker, more } none
  | taken {a : α} {queue : Queue α} (ht : x.taker = .trying)
      (hq : x.queue.tryPop? = some (a, queue)) :
      Step now x .take { x with queue, taker := .telling } (some (.popped (some a)))
  | ended (ht : x.taker = .asking) (hc : x.queue.closed = true) :
      Step now x .take { x with more := x.more.leave, taker := .away } (some (.popped none))
  | toldBack (ht : x.taker = .telling) :
      Step now x .take { x with room := x.room.ring, more := x.more.leave, taker := .away } none
  | closed : Step now x .close { x with queue := x.queue.close } none
  | rousedTaker (hc : x.queue.closed = true) :
      Step now x .rouseTaker { x with more := x.more.ringAll } none
  | rousedBringer (hc : x.queue.closed = true) :
      Step now x .rouseBringer { x with room := x.room.ringAll } none

variable {now : Millis} {n : Nat} {x x' : Handoff α} {act : Act α} {result : Option (Settled α)}

theorem step_of_bring? (h : x.bring? now = some (x', result)) : Step now x .bring x' result := by
  unfold bring? at h
  split at h
  · cases h
  · rename_i hb
    split at h
    · rename_i hc
      cases h
      exact .refused hb hc
    · rename_i ho
      cases h
      exact .proceeds (.admitted hb (Bool.eq_false_iff.2 ho))
  · rename_i hb
    cases h
    exact .proceeds (.listened hb)
  · rename_i hb
    split at h
    · rename_i hr
      cases h
      exact .queued (.inl ⟨_, hb⟩) hr
    · rename_i hf
      cases h
      exact .proceeds (.stayed hb (Queue.hasRoom_eq_false_iff.2 hf))
  · rename_i hb
    split at h
    · rename_i hw
      cases h
      exact .proceeds (.woken hb hw)
    · rename_i hw
      split at h
      · rename_i hd
        cases h
        exact .proceeds (.gaveUp hb hd (Bool.eq_false_iff.2 hw))
      · cases h
  · rename_i hb
    rcases hf : x.queue.force _ with ⟨outcome, queue⟩
    rw [hf] at h
    cases h
    unfold Queue.force at hf
    split at hf
    · rename_i hr
      cases hf
      exact .queued (.inr hb) hr
    · rename_i hr
      cases hf
      exact .dropped hb (Queue.hasRoom_eq_false_iff.2 hr)
  · rename_i hb
    cases h
    exact .told hb

theorem step_of_take? (h : x.take? = some (x', result)) : Step now x .take x' result := by
  unfold take? at h
  split at h
  · cases h
  · rename_i ht
    cases h
    exact .seeks (.listened ht)
  · rename_i ht
    split at h
    · rename_i hq
      cases h
      exact .taken ht hq
    · rename_i hq
      cases h
      exact .seeks (.looked ht (Queue.tryPop?_eq_none_iff.1 hq))
  · rename_i ht
    split at h
    · rename_i hc
      cases h
      exact .ended ht hc
    · rename_i ho
      cases h
      exact .seeks (.stayed ht (Bool.eq_false_iff.2 ho))
  · rename_i ht
    split at h
    · rename_i hw
      cases h
      exact .seeks (.woken ht hw)
    · cases h
  · rename_i ht
    cases h
    exact .toldBack ht

/-- Everything that is done is one of these things. -/
theorem step_of_step? (h : x.step? now act = some (x', result)) : Step now x act x' result := by
  cases act with
  | push a wait =>
      simp only [step?] at h
      split at h
      · rename_i hb
        cases h
        exact .came hb
      · cases h
  | bring => exact step_of_bring? h
  | pop =>
      simp only [step?] at h
      split at h
      · rename_i ht
        cases h
        exact .seeks (.came ht)
      · cases h
  | take => exact step_of_take? h
  | cancel =>
      simp only [step?] at h
      split at h
      · rename_i ht
        cases h
        exact .seeks (.left ht)
      · cases h
  | close =>
      cases h
      exact .closed
  | rouseTaker =>
      simp only [step?] at h
      split_ifs at h with hc
      cases h
      exact .rousedTaker hc
  | rouseBringer =>
      simp only [step?] at h
      split_ifs at h with hc
      cases h
      exact .rousedBringer hc

/-! ### Nobody sleeps over a change -/

/-- Whoever waits for a change is awake if there has been one, or somebody is about to ring. -/
structure Alert (x : Handoff α) : Prop where
  bringerListens (a : α) (deadline : Millis)
    (hb : x.bringer = .trying a deadline ∨ x.bringer = .waiting a deadline) :
    x.room.listener ≠ .away
  takerListens (ht : x.taker = .trying ∨ x.taker = .asking ∨ x.taker = .waiting) :
    x.more.listener ≠ .away
  room (a : α) (deadline : Millis) (hb : x.bringer = .waiting a deadline) :
    x.room.isAwake = true ∨ x.queue.hasRoom = false ∨ x.taker = .telling
  more (ht : x.taker = .asking ∨ x.taker = .waiting) :
    x.more.isAwake = true ∨ x.queue.items = [] ∨ x.bringer = .telling

theorem alert_start (n : Nat) : (start n : Handoff α).Alert where
  bringerListens := by simp [start]
  takerListens := by simp [start]
  room := by simp [start]
  more := by simp [start]

theorem Alert.step (h : x.Alert) (hs : Step now x act x' result) : x'.Alert := by
  obtain ⟨hbl, htl, hr, hm⟩ := h
  cases hs with
  | came hb => exact ⟨by simp, htl, by simp, fun ht => by simpa [hb] using hm ht⟩
  | proceeds hp =>
      have hmore (ht : x.taker = .asking ∨ x.taker = .waiting) :
          x.more.isAwake = true ∨ x.queue.items = [] := by
        rcases hm ht with h | h | h
        · exact .inl h
        · exact .inr h
        · cases hp <;> simp_all
      refine ⟨?_, htl, ?_, fun ht => (hmore ht).imp_right .inl⟩
      · cases hp with
        | admitted hb => simp
        | listened hb => intro _ _ _; exact Bell.listener_listen_ne_away
        | stayed hb => intro _ _ _; exact hbl _ _ (.inl hb)
        | woken | gaveUp => simp
      · cases hp with
        | stayed hb hf => intro _ _ _; exact .inr (.inl hf)
        | _ => simp
  | refused hb => exact ⟨by simp, htl, by simp, fun ht => by simpa [hb] using hm ht⟩
  | queued | dropped => exact ⟨by simp, htl, by simp, fun _ => .inr (.inr rfl)⟩
  | told hb =>
      refine ⟨by simp, fun ht => Bell.listener_ring_ne_away (htl ht), by simp, fun ht => ?_⟩
      exact .inl (Bell.isAwake_ring (htl (.inr ht)))
  | seeks hk =>
      have hroom (a : α) (deadline : Millis) (hb : x.bringer = .waiting a deadline) :
          x.room.isAwake = true ∨ x.queue.hasRoom = false := by
        rcases hr a deadline hb with h | h | h
        · exact .inl h
        · exact .inr h
        · cases hk <;> simp_all
      refine ⟨hbl, ?_, fun a deadline hb => (hroom a deadline hb).imp_right .inl, ?_⟩
      · cases hk with
        | came | woken | left => simp
        | listened ht => intro _; exact Bell.listener_listen_ne_away
        | looked ht => intro _; exact htl (.inl ht)
        | stayed ht => intro _; exact htl (.inr (.inl ht))
      · cases hk with
        | looked ht he => intro _; exact .inr (.inl he)
        | stayed ht => intro _; exact hm (.inl ht)
        | _ => simp
  | taken => exact ⟨hbl, by simp, fun _ _ _ => .inr (.inr rfl), by simp⟩
  | ended ht =>
      exact ⟨hbl, by simp, fun a deadline hb => by simpa [ht] using hr a deadline hb, by simp⟩
  | toldBack ht =>
      refine ⟨fun a deadline hb => Bell.listener_ring_ne_away (hbl a deadline hb), by simp,
        fun a deadline hb => ?_, by simp⟩
      exact .inl (Bell.isAwake_ring (hbl a deadline (.inr hb)))
  | closed => exact ⟨hbl, htl, hr, hm⟩
  | rousedTaker =>
      refine ⟨hbl, fun ht => Bell.listener_ringAll_ne_away (htl ht), hr, fun ht => ?_⟩
      exact .inl (Bell.isAwake_ringAll (htl (.inr ht)))
  | rousedBringer =>
      refine ⟨fun a deadline hb => Bell.listener_ringAll_ne_away (hbl a deadline hb), htl,
        fun a deadline hb => ?_, hm⟩
      exact .inl (Bell.isAwake_ringAll (hbl a deadline (.inr hb)))

/-! ### Moves -/

/-- A step, with all that it depends on and all that it does. -/
structure Move (α : Type) where
  now : Millis
  before : Handoff α
  act : Act α
  after : Handoff α
  result : Option (Settled α)

namespace Move

/-- Someone comes with an element. -/
def isPush (mv : Move α) : Bool :=
  match mv.act with
  | .push _ _ => true
  | _ => false

/-- The element that comes into the queue. -/
def accepted? (mv : Move α) : Option α :=
  match mv.result with
  | some (.pushed .queued) | some (.pushed .droppedOldest) => mv.before.element?
  | _ => none

/-- The element that is taken. -/
def popped? (mv : Move α) : Option α :=
  match mv.result with
  | some (.popped item) => item
  | _ => none

/-- The element that is dropped for want of room. -/
def evicted? (mv : Move α) : Option α :=
  match mv.result with
  | some (.pushed .droppedOldest) => mv.before.queue.items.head?
  | _ => none

/-- The element that leaves the queue. -/
def exit? (mv : Move α) : Option α := mv.popped?.or mv.evicted?

/-- Whoever comes for an element looks for one. -/
def isLook (mv : Move α) : Bool :=
  match mv.act, mv.before.taker with
  | .take, .trying => true
  | _, _ => false

/-- Who brings an element will learn that the queue is closed: he comes when it is, or he has been
woken by whoever has closed it. -/
def IsLate (mv : Move α) : Prop :=
  (∃ a wait, mv.act = .push a wait) ∧ mv.before.queue.closed = true ∨
    mv.act = .bring ∧ (∃ a deadline, mv.before.bringer = .waiting a deadline) ∧
      mv.before.room.listener = .roused

end Move

/-- The elements that have come into the queue. -/
def accepted (ms : List (Move α)) : List α := ms.filterMap Move.accepted?

/-- The elements that have been taken. -/
def popped (ms : List (Move α)) : List α := ms.filterMap Move.popped?

/-- The elements that have been dropped for want of room. -/
def evicted (ms : List (Move α)) : List α := ms.filterMap Move.evicted?

/-- The elements that have left the queue. -/
def exits (ms : List (Move α)) : List α := ms.filterMap Move.exit?

section Moves

variable {mv : Move α} {ms : List (Move α)}

/-- What comes in comes in behind, and what leaves leaves in front. -/
theorem items_of_step (h : Step mv.now mv.before mv.act mv.after mv.result) :
    mv.before.queue.items ++ mv.accepted?.toList =
      mv.exit?.toList ++ mv.after.queue.items := by
  obtain ⟨now, x, act, x', result⟩ := mv
  change Step now x act x' result at h
  cases h with
  | queued hb =>
      rcases hb with ⟨deadline, hb⟩ | hb <;>
        simp [Move.accepted?, Move.exit?, Move.popped?, Move.evicted?, element?, hb]
  | dropped hb hf =>
      have hcapacity := x.queue.capacity_pos
      cases hitems : x.queue.items with
      | nil => simp [Queue.hasRoom, hitems, hcapacity.ne'] at hf
      | cons oldest rest =>
          simp [Move.accepted?, Move.exit?, Move.popped?, Move.evicted?, element?, hb, hitems]
  | taken ht hq =>
      simp [Move.accepted?, Move.exit?, Move.popped?, (Queue.tryPop?_eq_some_iff.1 hq).1]
  | _ => simp [Move.accepted?, Move.exit?, Move.popped?, Move.evicted?]

/-- The queue keeps its capacity. -/
theorem capacity_of_step (h : Step now x act x' result) : x'.queue.capacity = x.queue.capacity := by
  cases h with
  | taken ht hq => exact (Queue.tryPop?_eq_some_iff.1 hq).2.1
  | _ => rfl

/-- A closed queue stays closed. -/
theorem closed_of_step (h : Step now x act x' result) (hc : x.queue.closed = true) :
    x'.queue.closed = true := by
  cases h with
  | taken ht hq => exact (Queue.tryPop?_eq_some_iff.1 hq).2.2.trans hc
  | closed => rfl
  | _ => exact hc

/-- Only when the queue has been closed does the bell rouse everybody. -/
theorem roused_of_step (h : Step now x act x' result)
    (hx : x.room.listener = .roused → x.queue.closed = true)
    (hr : x'.room.listener = .roused) : x'.queue.closed = true := by
  have hclosed := closed_of_step h
  cases h with
  | proceeds hp =>
      cases hp with
      | admitted | stayed => exact hx hr
      | listened =>
          simp only [Bell.listen] at hr
          split_ifs at hr
      | woken | gaveUp => cases hr
  | told => cases hr
  | toldBack => exact hx (Bell.roused_of_ring hr)
  | rousedBringer hc => exact hc
  | _ => exact hclosed (hx hr)

/-- As long as an element is still to be put in, room that there is stays. -/
theorem hasRoom_of_step (h : Step now x act x' result) (hp : ∀ a wait, act ≠ .push a wait)
    (he : x'.element?.isSome) :
    x.element?.isSome ∧ (x.queue.hasRoom = true → x'.queue.hasRoom = true) := by
  cases h with
  | came => exact absurd rfl (hp _ _)
  | proceeds h => cases h <;> simp_all [element?]
  | refused | queued | dropped | told => simp [element?] at he
  | taken ht hq =>
      obtain ⟨hitems, hcapacity, -⟩ := Queue.tryPop?_eq_some_iff.1 hq
      refine ⟨he, fun hroom => ?_⟩
      simp only [Queue.hasRoom, hitems, hcapacity, List.length_cons, decide_eq_true_eq] at hroom ⊢
      omega
  | _ => exact ⟨he, id⟩

/-- Where an element has been taken there is room. -/
theorem hasRoom_of_popped? (h : Step mv.now mv.before mv.act mv.after mv.result)
    (hp : mv.popped?.isSome) : mv.after.queue.hasRoom = true := by
  obtain ⟨now, x, act, x', result⟩ := mv
  change Step now x act x' result at h
  cases h with
  | taken ht hq =>
      obtain ⟨hitems, hcapacity, -⟩ := Queue.tryPop?_eq_some_iff.1 hq
      have hle := x.queue.length_le
      rw [hitems, List.length_cons] at hle
      simp only [Queue.hasRoom, hcapacity, decide_eq_true_eq]
      omega
  | _ => cases hp

theorem isPush_eq_false (h : mv.isPush = false) (a : α) (wait : Millis) :
    mv.act ≠ .push a wait := by
  intro hact
  rw [Move.isPush, hact] at h
  cases h

theorem isLook_iff : mv.isLook = true ↔ mv.act = .take ∧ mv.before.taker = .trying := by
  unfold Move.isLook
  constructor
  · intro h
    split at h
    · rename_i hact ht
      exact ⟨hact, ht⟩
    · cases h
  · rintro ⟨hact, ht⟩
    rw [hact, ht]

/-- Who is about to ask whether the queue is closed has just looked, and found it empty, or he has
been about to ask before. -/
theorem asking_of_step (h : Step now x act x' result) (ht : x'.taker = .asking) :
    x.taker = .asking ∧ act ≠ .take ∨
      (act = .take ∧ x.taker = .trying) ∧ x'.queue.items = [] := by
  cases h with
  | seeks hk =>
      cases hk with
      | looked htrying he => exact .inr ⟨⟨rfl, htrying⟩, he⟩
      | came | listened | stayed | woken | left => cases ht
  | taken | ended | toldBack => cases ht
  | _ => exact .inl ⟨ht, by intro hact; cases hact⟩

/-- Only who has looked takes an element. -/
theorem popped?_of_asking (h : Step mv.now mv.before mv.act mv.after mv.result)
    (ht : mv.before.taker = .asking) : mv.popped? = none := by
  obtain ⟨now, x, act, x', result⟩ := mv
  change Step now x act x' result at h
  dsimp only at ht
  cases h with
  | taken htrying =>
      rw [ht] at htrying
      cases htrying
  | _ => rfl

/-- If no element is taken, a queue is empty when it has been empty and none has come in. -/
theorem items_eq_nil_iff_of_step (h : Step mv.now mv.before mv.act mv.after mv.result)
    (hp : mv.popped? = none) :
    mv.after.queue.items = [] ↔ mv.before.queue.items = [] ∧ mv.accepted? = none := by
  obtain ⟨now, x, act, x', result⟩ := mv
  change Step now x act x' result at h
  cases h with
  | queued hb =>
      rcases hb with ⟨deadline, hb⟩ | hb <;> simp [Move.accepted?, element?, hb]
  | dropped hb => simp [Move.accepted?, element?, hb]
  | taken => cases hp
  | _ => simp [Move.accepted?]

/-- As long as he who brings an element has not gone on, he stays where he is. -/
theorem bringer_of_step (h : Step now x act x' result) (hb : x.bringer ≠ .away)
    (ha : act ≠ .bring) : x'.bringer = x.bringer := by
  cases h with
  | came haway => exact absurd haway hb
  | proceeds | refused | queued | dropped | told => exact absurd rfl ha
  | _ => rfl

end Moves

/-! ### Runs -/

/-- The runs: the moves, oldest first, and the state that they lead to. -/
inductive Run (x₀ : Handoff α) : List (Move α) → Handoff α → Prop where
  | nil : Run x₀ [] x₀
  | snoc {ms : List (Move α)} {mv : Move α} (h : Run x₀ ms mv.before)
      (hs : mv.before.step? mv.now mv.act = some (mv.after, mv.result)) :
      Run x₀ (ms ++ [mv]) mv.after

variable {x₀ : Handoff α} {ms ms' : List (Move α)} {mv : Move α}

theorem run_concat_iff :
    Run x₀ (ms ++ [mv]) x ↔ Run x₀ ms mv.before ∧
      mv.before.step? mv.now mv.act = some (mv.after, mv.result) ∧ x = mv.after := by
  constructor
  · intro h
    generalize hl : ms ++ [mv] = l at h
    cases h with
    | nil => simp at hl
    | snoc h hs =>
        obtain ⟨rfl, hmv⟩ := List.append_inj' hl rfl
        obtain rfl := (List.cons.inj hmv).1
        exact ⟨h, hs, rfl⟩
  · rintro ⟨h, hs, rfl⟩
    exact h.snoc hs

/-- A run falls into two at every point. -/
theorem Run.split (h : Run x₀ (ms ++ ms') x) : ∃ y, Run x₀ ms y ∧ Run y ms' x := by
  induction ms' using List.reverseRecOn generalizing x with
  | nil => exact ⟨x, by simpa using h, .nil⟩
  | append_singleton ms' mv ih =>
      rw [← List.append_assoc] at h
      obtain ⟨hboth, hs, rfl⟩ := run_concat_iff.1 h
      obtain ⟨y, hfront, hrest⟩ := ih hboth
      exact ⟨y, hfront, hrest.snoc hs⟩

/-- A run that goes through a move has come to where it starts, and goes on where it ends. -/
theorem Run.split_cons (h : Run x₀ (ms ++ mv :: ms') x) :
    Run x₀ ms mv.before ∧ Step mv.now mv.before mv.act mv.after mv.result ∧ Run mv.after ms' x := by
  rw [← List.singleton_append, ← List.append_assoc] at h
  obtain ⟨y, hto, hrest⟩ := h.split
  obtain ⟨hfront, hs, rfl⟩ := run_concat_iff.1 hto
  exact ⟨hfront, step_of_step? hs, hrest⟩

/-- Nobody sleeps over a change that concerns him. -/
theorem Run.alert (h : Run (start n) ms x) : x.Alert := by
  induction h with
  | nil => exact alert_start n
  | snoc _ hs ih => exact ih.step (step_of_step? hs)

theorem Run.capacity (h : Run (start n) ms x) : x.queue.capacity = max n 1 := by
  induction h with
  | nil => rfl
  | snoc _ hs ih => exact (capacity_of_step (step_of_step? hs)).trans ih

theorem Run.closed_of_roused (h : Run (start n) ms x) (hr : x.room.listener = .roused) :
    x.queue.closed = true := by
  induction h with
  | nil => cases hr
  | snoc _ hs ih => exact roused_of_step (step_of_step? hs) ih hr

/-- What has come in has left, or is still there. -/
theorem Run.balanced (h : Run (start n) ms x) : exits ms ++ x.queue.items = accepted ms := by
  induction h with
  | nil => rfl
  | snoc _ hs ih =>
      rw [accepted, exits, filterMap_concat, filterMap_concat, List.append_assoc,
        ← items_of_step (step_of_step? hs), ← List.append_assoc, ← exits, ih, ← accepted]

/-- What is taken is not dropped. -/
theorem evicted?_of_popped? {a : α} (h : mv.popped? = some a) : mv.evicted? = none := by
  rw [Move.popped?] at h
  split at h
  · rename_i hr
    rw [Move.evicted?, hr]
  · cases h

/-- What has left has been taken or dropped. -/
theorem exits_perm (ms : List (Move α)) : (popped ms ++ evicted ms).Perm (exits ms) := by
  induction ms with
  | nil => exact .nil
  | cons mv ms ih =>
      cases hp : mv.popped? with
      | some a =>
          simpa [popped, evicted, exits, Move.exit?, hp, evicted?_of_popped? hp] using ih
      | none =>
          cases he : mv.evicted? with
          | none => simpa [popped, evicted, exits, Move.exit?, hp, he] using ih
          | some a =>
              simpa [popped, evicted, exits, Move.exit?, hp, he] using
                List.perm_middle.trans (ih.cons a)

/-- What has been taken has left in this order. -/
theorem popped_sublist (ms : List (Move α)) : (popped ms).Sublist (exits ms) := by
  induction ms with
  | nil => exact .slnil
  | cons mv ms ih =>
      cases hp : mv.popped? with
      | some a => simpa [popped, exits, Move.exit?, hp] using ih
      | none =>
          cases he : mv.evicted? with
          | none => simpa [popped, exits, Move.exit?, hp, he] using ih
          | some a => simpa [popped, exits, Move.exit?, hp, he] using ih.cons a

/-- What has happened to a queue since somebody has looked for an element, who is still about to ask
whether it is closed. -/
structure Overlooks (ms : List (Move α)) (x : Handoff α) : Prop where
  /-- He has found no element. -/
  found : ∃ front look, ms = front ++ look :: since Move.isLook ms ∧ look.isLook = true ∧
    look.after.queue.items = []
  /-- What is in the queue, or has been dropped, has come in since. -/
  balanced : evicted (since Move.isLook ms) ++ x.queue.items = accepted (since Move.isLook ms)
  /-- Nothing has been taken. -/
  popped_eq : popped (since Move.isLook ms) = []
  /-- So the queue is empty exactly if nothing has come in. -/
  empty_iff : x.queue.items = [] ↔ accepted (since Move.isLook ms) = []

/-- Who is about to ask whether the queue is closed does not know what has come in since he has
looked. -/
theorem Run.overlooks (h : Run (start n) ms x) (ht : x.taker = .asking) : Overlooks ms x := by
  induction h with
  | nil => cases ht
  | @snoc ms mv _ hs ih =>
      have hstep := step_of_step? hs
      rcases asking_of_step hstep ht with ⟨hbefore, hact⟩ | ⟨hlook, hempty⟩
      · -- he has looked before: the move adds to what has happened since
        have hno : mv.isLook = false := by
          rw [Bool.eq_false_iff, ne_eq, isLook_iff]
          exact fun hlook => hact hlook.1
        have hpopped := popped?_of_asking hstep hbefore
        obtain ⟨⟨front, look, hms, hlook, hfound⟩, hbalanced, huntaken, hempty⟩ := ih hbefore
        have hitems := items_of_step hstep
        rw [Move.exit?, hpopped, Option.none_or] at hitems
        refine ⟨⟨front, look, ?_, hlook, hfound⟩, ?_, ?_, ?_⟩
        · rw [since_concat_of_neg hno, ← List.cons_append, ← List.append_assoc, ← hms]
        · rw [since_concat_of_neg hno, evicted, accepted, filterMap_concat, filterMap_concat,
            List.append_assoc, ← hitems, ← List.append_assoc, ← evicted, hbalanced, accepted]
        · rw [since_concat_of_neg hno, popped, filterMap_concat, hpopped, ← popped, huntaken]
          rfl
        · rw [since_concat_of_neg hno, items_eq_nil_iff_of_step hstep hpopped, hempty, accepted,
            accepted, filterMap_concat, List.append_eq_nil_iff, Option.toList_eq_nil_iff]
      · -- he has looked just now
        have hyes := isLook_iff.2 hlook
        refine ⟨⟨ms, mv, ?_, hyes, hempty⟩, ?_, ?_, ?_⟩
        · rw [since_concat_of_pos hyes]
        · rw [since_concat_of_pos hyes, hempty]
          rfl
        · rw [since_concat_of_pos hyes]
          rfl
        · rw [since_concat_of_pos hyes, hempty]
          exact iff_of_true rfl rfl

/-- Once an element has been taken while another waits, there is room for that. -/
theorem Run.hasRoom (h : Run (start n) ms x) (he : x.element?.isSome)
    (hp : ∃ m ∈ since Move.isPush ms, m.popped?.isSome) : x.queue.hasRoom = true := by
  induction h with
  | nil => simp at hp
  | @snoc ms mv _ hs ih =>
      have hstep := step_of_step? hs
      cases hpush : mv.isPush with
      | true => simp [since_concat_of_pos hpush] at hp
      | false =>
          obtain ⟨hbefore, hkept⟩ := hasRoom_of_step hstep (isPush_eq_false hpush) he
          rw [since_concat_of_neg hpush] at hp
          obtain ⟨m, hm, hpopped⟩ := hp
          rcases List.mem_append.1 hm with hm | hm
          · exact hkept (ih hbefore ⟨m, hm, hpopped⟩)
          · obtain rfl := List.mem_singleton.1 hm
            exact hasRoom_of_popped? hstep hpopped

/-- As long as he who brings an element has not gone on, he stays where he is, and a closed queue
stays closed. -/
theorem Run.stays (h : Run x₀ ms x) (hb : x₀.bringer ≠ .away)
    (ha : ∀ m ∈ ms, m.act ≠ .bring) (hc : x₀.queue.closed = true) :
    x.bringer = x₀.bringer ∧ x.queue.closed = true := by
  induction h with
  | nil => exact ⟨rfl, hc⟩
  | snoc _ hs ih =>
      obtain ⟨hbringer, hclosed⟩ := ih fun m hm => ha m (by simp [hm])
      have hstep := step_of_step? hs
      exact ⟨(bringer_of_step hstep (hbringer ▸ hb) (ha _ (by simp))).trans hbringer,
        closed_of_step hstep hclosed⟩

/-- Who is late finds the queue closed when he asks. -/
theorem asking_of_isLate (h : Run (start n) ms mv.before)
    (hs : Step mv.now mv.before mv.act mv.after mv.result) (hl : mv.IsLate) :
    (∃ a deadline, mv.after.bringer = .asking a deadline) ∧ mv.after.queue.closed = true := by
  have hclosed := closed_of_step hs
  obtain ⟨now, x, act, x', result⟩ := mv
  change Step now x act x' result at hs
  rcases hl with ⟨⟨a, wait, hact⟩, hc⟩ | ⟨hact, ⟨a, deadline, hb⟩, hr⟩
  · obtain rfl : act = .push a wait := hact
    cases hs with
    | came => exact ⟨⟨_, _, rfl⟩, hc⟩
    | seeks hk => cases hk
  · obtain rfl : act = .bring := hact
    refine ⟨?_, hclosed (h.closed_of_roused hr)⟩
    dsimp only at hb hr
    cases hs with
    | proceeds hp =>
        cases hp with
        | woken => exact ⟨_, _, rfl⟩
        | gaveUp _ _ hw => simp [Bell.isAwake, hr] at hw
        | admitted hb' | listened hb' | stayed hb' => simp [hb] at hb'
    | refused hb' | dropped hb' | told hb' | queued hb' => simp [hb] at hb'
    | seeks hk => cases hk

/-! ### What a queue promises -/

/-- What a queue of some capacity promises to those who have made some moves. -/
structure Delivers (n : Nat) (ms : List (Move α)) (x : Handoff α) : Prop where
  /-- There are never more elements in it than it has places for. -/
  bounded : x.queue.items.length ≤ max n 1
  /-- What it has accepted has left it in this order, or is still there. -/
  balanced : exits ms ++ x.queue.items = accepted ms
  /-- What has left it has been taken or dropped, and only one of these. -/
  accounted : (popped ms ++ evicted ms).Perm (exits ms)
  /-- Elements are taken in the order in which they have been accepted. -/
  ordered : (popped ms).Sublist (accepted ms)
  /-- For want of room the oldest element gives way to the new one, and no other. -/
  dropsOldest (mv : Move α) (hmv : mv ∈ ms) (hr : mv.result = some (.pushed .droppedOldest)) :
    ∃ a oldest rest, mv.before.bringer = .forcing a ∧ mv.before.queue.items = oldest :: rest ∧
      mv.before.queue.items.length = max n 1 ∧ mv.evicted? = some oldest ∧
      mv.after.queue.items = rest ++ [a]
  /-- That happens only if none has been taken while the new one has waited. -/
  dropsLast (front rest : List (Move α)) (mv : Move α) (hms : ms = front ++ mv :: rest)
    (hr : mv.result = some (.pushed .droppedOldest)) (m : Move α)
    (hm : m ∈ since Move.isPush front) : m.popped? = none
  /-- Who comes when the queue is closed, or is woken when it is, learns it with his next step, and
  his element does not come in. -/
  refuses (front mid rest : List (Move α)) (mv next : Move α)
    (hms : ms = front ++ mv :: (mid ++ next :: rest)) (hl : mv.IsLate)
    (hmid : ∀ m ∈ mid, m.act ≠ .bring) (hnext : next.act = .bring) :
    next.result = some (.pushed .closed) ∧ next.after.queue.items = next.before.queue.items
  /-- Only of a queue that is closed, and that has been found empty, does one learn that nothing
  will come.  What has come in since one has looked, and has not been dropped, is still in it. -/
  ends (front rest : List (Move α)) (mv : Move α) (hms : ms = front ++ mv :: rest)
    (hr : mv.result = some (.popped none)) :
    mv.before.queue.closed = true ∧ mv.after.queue = mv.before.queue ∧ Overlooks front mv.before

section Promise

/-- An element is dropped in a full queue, for one whose time is over. -/
theorem dropped_of_result (h : Step mv.now mv.before mv.act mv.after mv.result)
    (hr : mv.result = some (.pushed .droppedOldest)) :
    ∃ a, mv.before.bringer = .forcing a ∧ mv.before.queue.hasRoom = false ∧
      mv.after.queue.items = mv.before.queue.items.tail ++ [a] := by
  obtain ⟨now, x, act, x', result⟩ := mv
  change Step now x act x' result at h
  cases h with
  | dropped hb hf => exact ⟨_, hb, hf, rfl⟩
  | _ => cases hr

/-- One learns of the end only where the queue is closed. -/
theorem ended_of_result (h : Step mv.now mv.before mv.act mv.after mv.result)
    (hr : mv.result = some (.popped none)) : mv.before.taker = .asking ∧
      mv.before.queue.closed = true ∧ mv.after.queue = mv.before.queue := by
  obtain ⟨now, x, act, x', result⟩ := mv
  change Step now x act x' result at h
  cases h with
  | ended ht hc => exact ⟨ht, hc, rfl⟩
  | _ => cases hr

/-- Who asks a closed queue is refused. -/
theorem refused_of_asking (h : Step mv.now mv.before mv.act mv.after mv.result)
    (ha : mv.act = .bring) (hb : ∃ a deadline, mv.before.bringer = .asking a deadline)
    (hc : mv.before.queue.closed = true) :
    mv.result = some (.pushed .closed) ∧ mv.after.queue.items = mv.before.queue.items := by
  obtain ⟨now, x, act, x', result⟩ := mv
  change Step now x act x' result at h
  obtain rfl : act = .bring := ha
  obtain ⟨a, deadline, hb⟩ := hb
  dsimp only at hb hc
  cases h with
  | refused => exact ⟨rfl, rfl⟩
  | proceeds hp =>
      cases hp with
      | admitted _ ho => rw [hc] at ho; cases ho
      | listened hb' | stayed hb' | woken hb' | gaveUp hb' => simp [hb] at hb'
  | queued hb' | dropped hb' | told hb' => simp [hb] at hb'
  | seeks hk => cases hk

end Promise

/-- **A queue keeps its promise after every run**, whatever its two ends do and whenever it is
closed. -/
theorem Run.delivers (h : Run (start n) ms x) : Delivers n ms x where
  bounded := h.capacity ▸ x.queue.length_le
  balanced := h.balanced
  accounted := exits_perm ms
  ordered := h.balanced ▸ (popped_sublist ms).trans (List.sublist_append_left _ _)
  dropsOldest mv hmv hr := by
    obtain ⟨front, rest, rfl⟩ := List.append_of_mem hmv
    obtain ⟨hfront, hs, -⟩ := h.split_cons
    obtain ⟨a, hb, hfull, hafter⟩ := dropped_of_result hs hr
    have hlength : mv.before.queue.items.length = max n 1 := by
      have hle := mv.before.queue.length_le
      have hge := Queue.hasRoom_eq_false_iff.1 hfull
      rw [← hfront.capacity]
      omega
    cases hitems : mv.before.queue.items with
    | nil =>
        rw [hitems, List.length_nil] at hlength
        omega
    | cons oldest rest =>
        refine ⟨a, oldest, rest, hb, rfl, hitems ▸ hlength, ?_, ?_⟩
        · rw [Move.evicted?, hr, hitems, List.head?_cons]
        · rw [hafter, hitems, List.tail_cons]
  dropsLast front rest mv hms hr m hm := by
    subst hms
    obtain ⟨hfront, hs, -⟩ := h.split_cons
    obtain ⟨a, hb, hfull, -⟩ := dropped_of_result hs hr
    -- had one been taken, there would be room
    cases hp : m.popped? with
    | none => rfl
    | some b =>
        have hroom := hfront.hasRoom (by rw [element?, hb]; rfl) ⟨m, hm, hp ▸ rfl⟩
        rw [hfull] at hroom
        cases hroom
  refuses front mid rest mv next hms hl hmid hnext := by
    subst hms
    obtain ⟨hfront, hs, hrest⟩ := h.split_cons
    obtain ⟨hasking, hclosed⟩ := asking_of_isLate hfront hs hl
    obtain ⟨hmiddle, hs', -⟩ := hrest.split_cons
    have haway : mv.after.bringer ≠ .away := by
      obtain ⟨a, deadline, hb⟩ := hasking
      rw [hb]
      nofun
    obtain ⟨hbringer, hstill⟩ := hmiddle.stays haway hmid hclosed
    exact refused_of_asking hs' hnext (hbringer ▸ hasking) hstill
  ends front rest mv hms hr := by
    subst hms
    obtain ⟨hfront, hs, -⟩ := h.split_cons
    obtain ⟨hasking, hclosed, hsame⟩ := ended_of_result hs hr
    exact ⟨hclosed, hsame, hfront.overlooks hasking⟩

/-! ### Ends that nobody interrupts -/

/-- The run that some acts make at given times, after some moves. -/
def play? : List (Millis × Act α) → List (Move α) → Handoff α → Option (List (Move α) × Handoff α)
  | [], ms, x => some (ms, x)
  | (now, act) :: script, ms, x =>
    match x.step? now act with
    | none => none
    | some (x', result) => play? script (ms ++ [⟨now, x, act, x', result⟩]) x'

/-- What has been played is a run. -/
theorem Run.of_play? {script : List (Millis × Act α)} {ms' : List (Move α)} {x' : Handoff α}
    (h : Run x₀ ms x) (hp : play? script ms x = some (ms', x')) : Run x₀ ms' x' := by
  induction script generalizing ms x with
  | nil =>
      obtain ⟨rfl, rfl⟩ := Prod.mk.inj (Option.some.inj hp)
      exact h
  | cons next script ih =>
      simp only [play?] at hp
      split at hp
      · cases hp
      · rename_i x' result hs
        exact ih (@Run.snoc _ _ _ ⟨_, _, _, _, _⟩ h hs) hp

/-- What somebody does without a break comes to this end. -/
def Alone (now : Millis) (x : Handoff α) (acts : List (Act α)) (result : Settled α)
    (queue : Queue α) : Prop :=
  ∃ r, play? (acts.map fun act => (now, act)) [] x = some r ∧
    r.1.filterMap Move.result = [result] ∧ r.2.queue = queue

section Alone

variable {a : α} {o : PushOutcome} {q : Queue α}

/-- Who brings an element without a break makes one attempt, -/
theorem alone_push (hb : x.bringer = .away) (now wait : Millis)
    (hq : x.queue.push? a false = some (o, q)) :
    ∃ k, Alone now x (.push a wait :: List.replicate k .bring) (.pushed o) q := by
  unfold Queue.push? at hq
  split at hq
  · rename_i hc
    cases hq
    exact ⟨1, by simp [Alone, play?, step?, bring?, hb, hc]⟩
  · rename_i ho
    split at hq
    · rename_i hr
      cases hq
      exact ⟨3, by simp [Alone, play?, step?, bring?, hb, ho, hr]⟩
    · cases hq

/-- and one more when his time is over. -/
theorem alone_bring {deadline : Millis} (hb : x.bringer = .waiting a deadline)
    (hd : deadline ≤ now) (hw : x.room.isAwake = false) (ho : x.queue.closed = false)
    (hq : x.queue.push? a true = some (o, q)) :
    Alone now x (List.replicate 2 .bring) (.pushed o) q := by
  simp [Alone, play?, step?, bring?, hb, hd, hw, Queue.force_of_push? ho hq]

/-- Who comes for an element without a break makes one attempt. -/
theorem alone_pop (ht : x.taker = .away) (now : Millis) {item : Option α}
    (hq : x.queue.pop? = some (item, q)) :
    ∃ k, Alone now x (.pop :: List.replicate k .take) (.popped item) q := by
  rcases Queue.pop?_eq_some_iff.1 hq with ⟨a, rfl, hp⟩ | ⟨rfl, hp, hc, rfl⟩
  · exact ⟨2, by simp [Alone, play?, step?, take?, ht, hp]⟩
  · exact ⟨3, by simp [Alone, play?, step?, take?, ht, hp, hc]⟩

end Alone

/-! ### A busy queue -/

/-- Four elements come to a queue for one.  The second waits until its time is over and takes the
place of the first; then somebody takes it, comes again, and goes away.  The third comes in, and the
fourth waits until the queue is closed.  The third is still taken, and then nothing will come. -/
def busy : List (Millis × Act Nat) :=
  [(0, [.push 1 5, .bring, .bring, .bring, .bring]), (1, [.push 2 5, .bring, .bring, .bring]),
    (6, [.bring, .bring, .bring]), (7, [.pop, .take, .take, .take]),
    (8, [.pop, .take, .take, .take, .cancel]), (9, [.push 3 5, .bring, .bring, .bring, .bring]),
    (10, [.push 4 5, .bring, .bring, .bring]),
    (11, [.close, .rouseTaker, .rouseBringer, .bring, .bring]), (12, [.pop, .take, .take, .take]),
    (13, [.pop, .take, .take, .take])].flatMap fun (now, acts) => acts.map fun act => (now, act)

/-- The first is dropped, the next two are taken, and the fourth is refused. -/
theorem delivers_busy :
    ∃ (ms : List (Move Nat)) (x : Handoff Nat), Run (start 0) ms x ∧ accepted ms = [1, 2, 3] ∧
      popped ms = [2, 3] ∧ evicted ms = [1] ∧ (ms.any fun mv => mv.before.room.listener = .roused) ∧
      x.queue.isDrained = true ∧ Delivers 0 ms x := by
  have hfacts : (play? busy [] (start 0)).map (fun (ms, x) =>
      (accepted ms, popped ms, evicted ms, ms.any fun mv => mv.before.room.listener = .roused,
        x.queue.isDrained)) = some ([1, 2, 3], [2, 3], [1], true, true) := by
    decide +kernel
  obtain ⟨⟨ms, x⟩, hp, hq⟩ := Option.map_eq_some_iff.1 hfacts
  simp only [Prod.mk.injEq] at hq
  obtain ⟨haccepted, hpopped, hevicted, hroused, hdrained⟩ := hq
  have hrun : Run (start 0) ms x := .of_play? .nil hp
  exact ⟨ms, x, hrun, haccepted, hpopped, hevicted, hroused, hdrained, hrun.delivers⟩

/-- Somebody looks at an empty queue; then an element is put in, and the queue is closed, before he
asks whether it is. -/
def hasty : List (Millis × Act Nat) :=
  [.pop, .take, .take, .push 1 5, .bring, .bring, .bring, .bring, .close].map fun act => (0, act)

/-- He learns that nothing will come, while the element is in the queue. -/
theorem ends_over_element :
    ∃ (front : List (Move Nat)) (mv : Move Nat), Run (start 1) (front ++ [mv]) mv.after ∧
      mv.result = some (.popped none) ∧ mv.after.queue.closed = true ∧
      mv.after.queue.items = [1] ∧ accepted front = [1] ∧ exits front = [] := by
  have hfacts : (play? hasty [] (start 1)).map (fun r => (r.2.taker, r.2.queue.closed,
      r.2.queue.items, accepted r.1, exits r.1)) = some (.asking, true, [1], [1], []) := by
    decide +kernel
  obtain ⟨⟨front, x⟩, hp, hq⟩ := Option.map_eq_some_iff.1 hfacts
  simp only [Prod.mk.injEq] at hq
  obtain ⟨hasking, hclosed, hitems, haccepted, hexits⟩ := hq
  have hrun : Run (start 1) front x := .of_play? .nil hp
  -- he asks, and the queue is closed
  have hask : x.step? 0 .take =
      some ({ x with more := x.more.leave, taker := .away }, some (.popped none)) := by
    simp [step?, take?, hasking, hclosed]
  exact ⟨front, ⟨0, x, .take, _, _⟩, hrun.snoc hask, rfl, hclosed, hitems, haccepted, hexits⟩

end Handoff

end TopicBridge
