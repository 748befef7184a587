/-
**A subscriber hears its broker late.**

A subscriber asks its broker from time to time whether it is still there, and gives the connection
up if the next question is due and no answer to the last one has been read.  It is not enough that
the answer has come in.  While a message is being handed over nothing is read, and nobody looks at
the clock; afterwards the next packet and the next question are both due, and either may come first.
So a broker that has answered in time may be given up, with its answer unread.  If all that has come
in is read before the clock is looked at, it is not.

Main definitions:

* `Connection.waiting`, `Phase.waiting` — the packets that have come in and have not been read;
* `Move.asks`, `Move.reassures` — the broker is asked whether it is there, and its answer is read;
* `Move.brings` — an answer comes in;
* `Move.timesOut` — the broker is given up because it has not answered;
* `Subscriber.Stream` — what becomes of the stream of a connection in a step;
* `Subscriber.Attentive` — what a run owes to the answers of its broker.

Main results:

* `Subscriber.stream_of_step` — the stream of every connection, step by step;
* `Subscriber.isOpen_of_step` — a question is open until its answer is read;
* `Run.attentive` — **a run is attentive**;
* `timesOut_answered` — a broker that is given up although its answer has come in.
-/

import TopicBridge.Proofs.Mqtt.Stream
import TopicBridge.Proofs.Session.Frames
import TopicBridge.Proofs.Session.Redelivery

set_option autoImplicit false

namespace TopicBridge

open Mqtt

/-! ### What has come in -/

/-- The packets that have come in as a whole and have not been read. -/
def Connection.waiting (c : Connection) : List Packet := (c.decoder.drain c.inbound).packets

theorem Connection.waiting_of_receive {c c' : Connection} {packet : Packet}
    (h : c.receive = .ok (some (packet, c'))) : c.waiting = packet :: c'.waiting := by
  obtain ⟨rest, hdecode, rfl⟩ := exists_of_receive h
  rw [waiting, Decoder.drain_of_some hdecode, waiting]

namespace Subscriber

variable {p : Subscriber} {a b : Phase} {i : Input} {es : List Effect} {c c' : Connection}
  {packet : Packet} {mv q : Move} {ms : List Move} {st st₀ : State}

theorem hears_of_eq (hdecoder : c'.decoder = c.decoder) (hinbound : c'.inbound = c.inbound)
    (hending : c'.ending = c.ending) : Hears c c' :=
  ⟨hdecoder, ⟨[], by rw [hinbound, List.append_nil]⟩, .inl hending⟩

/-- What has come in is read in its order: more of it changes nothing for the first packets. -/
theorem Hears.waiting_prefix (h : Hears c c') : c.waiting <+: c'.waiting := by
  obtain ⟨bytes, hinbound⟩ := h.inbound
  rw [Connection.waiting, Connection.waiting, h.decoder, hinbound, Decoder.drain_append]
  unfold Decoder.feed
  split_ifs
  · exact List.prefix_rfl
  · exact List.prefix_append _ _

/-- Subscriptions leave the stream as it is. -/
theorem hears_of_subscribeAll {withIds : Bool} {l : List Interest}
    {pending pending' : List (UInt16 × UInt32)} {before written : List Bytes}
    (h : subscribeAll withIds c l pending before = (written, .ok (c', pending'))) :
    Hears c c' := by
  induction l generalizing c pending before with
  | nil =>
      obtain ⟨rfl, rfl⟩ := Prod.mk.inj (Except.ok.inj (Prod.mk.inj h).2)
      exact hears_of_eq rfl rfl rfl
  | cons i rest ih =>
      simp only [subscribeAll] at h
      split at h
      · cases (Prod.mk.inj h).2
      · obtain ⟨hdecoder, hinbound, hending⟩ := ih h
        exact ⟨hdecoder, hinbound, hending⟩

/-- What becomes of the stream of a connection in a step. -/
inductive Stream (a : Phase) (i : Input) (c' : Connection) : Prop where
  | fresh (ha : a.isConnected = false) (he : c'.ending = none)
  /-- Nothing is read. -/
  | heard {c : Connection} (ha : a.connection? = some c) (h : Hears c c')
  | greeted {c c₁ : Connection} {limit : Millis} {packet : Packet} (ha : a = .greeting c limit)
      (hr : c.receive = .ok (some (packet, c₁))) (h : Hears c₁ c')
  | read {s : Serving} {c₁ : Connection} {packet : Packet} (ha : a = .serving s)
      (hi : i = .link .packet) (hr : s.connection.receive = .ok (some (packet, c₁)))
      (h : Hears c₁ c')

theorem Phase.connection?_of_isAway (h : a.isAway) : a.connection? = none := by
  cases a with
  | greeting | welcoming | serving | delivering | reporting => cases h
  | _ => rfl

theorem Phase.exists_connection? (h : a.isConnected) : ∃ c, a.connection? = some c := by
  cases a with
  | welcoming | serving | delivering | reporting => exact ⟨_, rfl⟩
  | _ => cases h

theorem connection?_of_afterAnswer {s : Serving} (h : p.afterAnswer s = .ok b) :
    b.connection? = some s.connection := by
  rcases afterAnswer_eq_ok h with ⟨-, rfl⟩ | ⟨-, rfl⟩ <;> rfl

/-- **The stream of every connection, step by step.** -/
theorem stream_of_step (h : Step p a i b es) (hb : b.connection? = some c') : Stream a i c' := by
  cases h with
  | stop => cases hb
  | away hb' =>
      rw [Phase.connection?_of_isAway hb'] at hb
      cases hb
  | opened _ he =>
      obtain rfl := Option.some.inj hb
      exact .fresh rfl he
  | heard _ _ hup hc =>
      cases a with
      | greeting | welcoming | serving | delivering | reporting =>
          cases hup
          obtain rfl := Option.some.inj hb
          exact .heard rfl (hc _)
      | _ => cases hup
  | accepted hr hg =>
      obtain rfl := Option.some.inj hb
      obtain ⟨-, -, rfl⟩ := Connection.exists_of_greet hg
      exact .greeted rfl hr (hears_of_eq rfl rfl rfl)
  | subscribed hs hans =>
      rw [connection?_of_afterAnswer hans] at hb
      obtain rfl := Option.some.inj hb
      exact .heard rfl (hears_of_subscribeAll hs)
  | answered hr _ hans =>
      rw [connection?_of_afterAnswer hans] at hb
      obtain rfl := Option.some.inj hb
      exact .read rfl rfl hr (hears_of_eq rfl rfl rfl)
  | own hr _ _ hack =>
      obtain rfl := Option.some.inj hb
      obtain ⟨hconnection, -⟩ := receipt_of_acknowledge hack
      rw [hconnection]
      exact .read rfl rfl hr (hears_of_eq rfl rfl rfl)
  | repeated hr | offered hr | released hr | ignored hr =>
      obtain rfl := Option.some.inj hb
      exact .read rfl rfl hr (hears_of_eq rfl rfl rfl)
  | handed hack =>
      obtain rfl := Option.some.inj hb
      obtain ⟨hconnection, -⟩ := receipt_of_acknowledge hack
      rw [hconnection]
      exact .heard rfl (hears_of_eq rfl rfl rfl)
  | pinged | reported =>
      obtain rfl := Option.some.inj hb
      exact .heard rfl (hears_of_eq rfl rfl rfl)

theorem ending_of_receive (h : c.receive = .ok (some (packet, c'))) : c'.ending = c.ending := by
  obtain ⟨rest, -, rfl⟩ := Connection.exists_of_receive h
  rfl

theorem Hears.ending_ne_timeout {what : Awaited} (h : Hears c c')
    (hc : c.ending ≠ some (.timeout what)) : c'.ending ≠ some (.timeout what) := by
  rcases h.ending with hsame | ⟨e, hend, hne⟩
  · rwa [hsame]
  · rw [hend]
    intro heq
    exact hne what (Option.some.inj heq)

/-- A stream never comes to its end for want of an answer. -/
theorem Run.ending_ne_timeout {shutdown : Bool} (h : Run p (p.start shutdown) ms st)
    (hc : st.phase.connection? = some c) (what : Awaited) : c.ending ≠ some (.timeout what) := by
  have hinv : ∀ c, st.phase.connection? = some c → c.ending ≠ some (.timeout what) := by
    refine h.induction (fun _ st => ∀ c, st.phase.connection? = some c →
      c.ending ≠ some (.timeout what)) ?start ?step
    case start =>
      intro c hc
      cases shutdown <;> cases hc
    case step =>
      intro ms mv ih _ hstep c' hc'
      cases stream_of_step hstep hc' with
      | fresh _ he => simp [he]
      | heard ha h => exact h.ending_ne_timeout (ih _ ha)
      | greeted ha hr h | read ha _ hr h =>
          refine h.ending_ne_timeout ?_
          rw [ending_of_receive hr]
          exact ih _ (by rw [ha]; rfl)
  exact hinv c hc

/-! ### Questions and answers -/

/-- The packets that have come in on the connection of a phase and have not been read. -/
def Phase.waiting (a : Phase) : List Packet := (a.connection?.map Connection.waiting).getD []

/-- The broker is asked whether it is there. -/
def Move.asks (mv : Move) : Bool := (Effect.written mv.effects).contains [0xC0, 0]

/-- The answer to a question is read. -/
def Move.reassures (mv : Move) : Bool := decide (mv.received? = some .pingResp)

/-- An answer comes in. -/
def Move.brings (mv : Move) : Bool :=
  decide (mv.before.phase.waiting.count .pingResp < mv.after.phase.waiting.count .pingResp)

/-- The broker is given up because it has not answered. -/
def Move.timesOut (mv : Move) : Bool :=
  match mv.after.phase with
  | .losing (.timeout .pingResp) => mv.before.phase.isConnected
  | _ => false

/-- Whether a question is open. -/
def Phase.isOpen : Phase → Bool
  | .serving s | .delivering s _ _ | .reporting s _ => s.keepAlive.outstanding
  | _ => false

/-- Without subscriptions there is nothing that could be answered, and this is reported before the
first question. -/
def Phase.Unasked (p : Subscriber) : Phase → Prop
  | .serving s | .delivering s _ _ => p.interests = [] → s.pending = []
  | .reporting s _ => p.interests = [] → s.pending = [] ∧ s.keepAlive.outstanding = false
  | _ => True

theorem asks_eq_false (h : ∀ bytes ∈ Effect.written mv.effects, ∃ packet : Packet,
    packet.encode = .ok bytes ∧ packet.type ≠ 12) : mv.asks = false := by
  rw [Move.asks, ← Bool.not_eq_true, List.contains_iff_mem]
  intro hmem
  obtain ⟨packet, hencode, htype⟩ := h _ hmem
  have hfirst := Packet.packetType?_of_encode hencode
  exact htype (Option.some.inj hfirst).symm

/-- What is written for a message asks nothing. -/
theorem type_ne_of_acknowledge {s s' : Serving} {qos : QoS} {id : Option UInt16}
    {written : List Effect} (h : acknowledge s qos id = .ok (s', written)) :
    ∀ bytes ∈ Effect.written written, ∃ packet : Packet,
      packet.encode = .ok bytes ∧ packet.type ≠ 12 := by
  intro bytes hbytes
  obtain ⟨-, -, frames, rfl, hframes⟩ := receipt_of_acknowledge h
  rw [Effect.written_map_write] at hbytes
  obtain ⟨packet, hpacket, hencode⟩ := Packet.exists_of_mem_frames hframes hbytes
  refine ⟨packet, hencode, ?_⟩
  rcases type_of_receipt? (Option.mem_toList.1 hpacket) with htype | htype
  all_goals
    rw [htype]
    decide

/-- Only the tick of the clock asks something. -/
theorem asks_eq_false_of_step (h : Step p mv.before.phase mv.input mv.after.phase mv.effects)
    (hi : mv.input ≠ .link .ping) : mv.asks = false := by
  refine asks_eq_false fun bytes hbytes => ?_
  generalize mv.before.phase = a, mv.input = i, mv.after.phase = b, mv.effects = es
    at h hi hbytes
  cases h with
  | stop _ hes | away _ _ _ hes =>
      cases hes _ (Effect.mem_written_iff.1 hbytes) with
      | @subscription q _ hq => exact ⟨.subscribe q, hq, by simp [Packet.type]⟩
      | farewell hq => exact ⟨_, hq, by simp [Packet.type]⟩
  | opened _ _ hs =>
      obtain ⟨q, hq⟩ := hs
      obtain rfl := List.mem_singleton.1 hbytes
      exact ⟨.connect q, hq, by simp [Packet.type]⟩
  | subscribed hs =>
      rw [Effect.written_map_write] at hbytes
      obtain ⟨q, hq⟩ := (subscribeAll_cases hs (by simp)).1 bytes hbytes
      exact ⟨.subscribe q, hq, by simp [Packet.type]⟩
  | repeated _ _ _ hs | released _ hs =>
      obtain rfl := List.mem_singleton.1 hbytes
      exact ⟨_, Connection.encode_of_send hs, by simp [Packet.type]⟩
  | own _ _ _ hack | handed hack => exact type_ne_of_acknowledge hack bytes hbytes
  | pinged => exact absurd rfl hi
  | heard | accepted | offered | answered | ignored | reported => cases hbytes

/-- The answers that have come in wait until they are read. -/
theorem count_waiting_le (h : Step p mv.before.phase mv.input mv.after.phase mv.effects)
    (ha : mv.before.phase.isConnected) (hb : mv.after.phase.isConnected)
    (hr : mv.reassures = false) :
    mv.before.phase.waiting.count .pingResp ≤ mv.after.phase.waiting.count .pingResp := by
  obtain ⟨c', hc'⟩ := Phase.exists_connection? hb
  have hafter : mv.after.phase.waiting = c'.waiting := by simp [Phase.waiting, hc']
  rw [hafter]
  cases stream_of_step h hc' with
  | fresh hno =>
      rw [hno] at ha
      cases ha
  | @heard c hc hhears =>
      have hbefore : mv.before.phase.waiting = c.waiting := by simp [Phase.waiting, hc]
      rw [hbefore]
      exact hhears.waiting_prefix.sublist.count_le _
  | greeted hg =>
      rw [hg] at ha
      cases ha
  | @read s c₁ packet hs hi hr' hhears =>
      -- the packet that is read is another one
      have hpacket : packet ≠ .pingResp := by
        rintro rfl
        have hrec := received?_eq_some_iff.2 ⟨hi, s, c₁, hs, hr'⟩
        rw [Move.reassures, hrec] at hr
        simp at hr
      have hbefore : mv.before.phase.waiting = packet :: c₁.waiting := by
        rw [hs, ← Connection.waiting_of_receive hr']
        rfl
      rw [hbefore, List.count_cons_of_ne hpacket]
      exact hhears.waiting_prefix.sublist.count_le _

/-- Without subscriptions the report comes before the first question, step by step. -/
theorem Phase.Unasked.step (h : Step p a i b es) (ha : a.Unasked p) : b.Unasked p := by
  cases h with
  | stop => trivial
  | away hb =>
      cases b with
      | welcoming | serving | delivering | reporting => cases hb
      | _ => trivial
  | opened | accepted => trivial
  | heard _ _ hup =>
      cases a with
      | greeting | welcoming | serving | delivering | reporting =>
          cases hup
          exact ha
      | _ => cases hup
  | subscribed hs hans hk =>
      rcases afterAnswer_eq_ok hans with ⟨hpending, rfl⟩ | ⟨hpending, rfl⟩
      · intro hnone
        rw [hnone] at hs
        exact (Prod.mk.inj (Except.ok.inj (Prod.mk.inj hs).2)).2.symm
      · exact fun _ => ⟨hpending, hk⟩
  | repeated | offered | released | ignored | pinged => exact ha
  | own _ _ _ hack | handed hack =>
      intro hnone
      rw [(acknowledge_eq_ok hack).1]
      exact ha hnone
  | answered _ hl hans =>
      -- there is a subscription that is answered
      have hsome : p.interests ≠ [] := by
        intro hnone
        rw [ha hnone] at hl
        cases hl
      rcases afterAnswer_eq_ok hans with ⟨-, rfl⟩ | ⟨-, rfl⟩
      all_goals exact fun hnone => absurd hnone hsome
  | reported => exact fun hnone => (ha hnone).1

theorem isOpen_of_afterAnswer {s : Serving} (h : p.afterAnswer s = .ok b) :
    b.isOpen = s.keepAlive.outstanding := by
  rcases afterAnswer_eq_ok h with ⟨-, rfl⟩ | ⟨-, rfl⟩ <;> rfl

/-- What is neither a packet nor a question leaves an open question as it is. -/
theorem isOpen_of_quiet (hi : mv.input ≠ .link .packet) (hask : mv.asks = false)
    (ho : mv.after.phase.isOpen = mv.before.phase.isOpen) :
    mv.after.phase.isOpen = (!mv.reassures && (mv.asks || mv.before.phase.isOpen)) := by
  have hr : mv.reassures = false := by simp [Move.reassures, received?_eq_none hi]
  rw [ho, hask, hr, Bool.not_false, Bool.true_and, Bool.false_or]

/-- A packet that is read closes the question if it is the answer. -/
theorem isOpen_of_receive {s : Serving} {c : Connection}
    (h : Step p mv.before.phase mv.input mv.after.phase mv.effects)
    (hi : mv.input = .link .packet) (hb : mv.before.phase = .serving s)
    (hr : s.connection.receive = .ok (some (packet, c)))
    (ho : mv.after.phase.isOpen = (s.keepAlive.outstanding && !decide (packet = .pingResp))) :
    mv.after.phase.isOpen = (!mv.reassures && (mv.asks || mv.before.phase.isOpen)) := by
  have hrec : mv.received? = some packet := received?_eq_some_iff.2 ⟨hi, s, c, hb, hr⟩
  have hopen : mv.before.phase.isOpen = s.keepAlive.outstanding := by rw [hb, Phase.isOpen]
  have hask : mv.asks = false := asks_eq_false_of_step h (by simp [hi])
  rw [ho, hask, hopen, Move.reassures, hrec, Bool.false_or, Bool.and_comm]
  simp

/-- A connection that has not just been accepted has been there before. -/
theorem isConnected_of_step (h : Step p mv.before.phase mv.input mv.after.phase mv.effects)
    (hw : mv.isWelcome = false) (hcon : mv.after.phase.isConnected) :
    mv.before.phase.isConnected := by
  generalize ha : mv.before.phase = a, mv.input = i, hb : mv.after.phase = b,
    mv.effects = es at h hcon
  cases h with
  | stop | opened => cases hcon
  | away haway =>
      rw [Phase.not_isConnected_of_isAway haway] at hcon
      cases hcon
  | accepted => simp [Move.isWelcome, Move.welcomed?, ha, hb] at hw
  | heard _ _ hup =>
      cases a with
      | greeting | welcoming | serving | delivering | reporting =>
          cases hup
          exact hcon
      | _ => cases hup
  | _ => rfl

/-- **A question is open until its answer is read.** -/
theorem isOpen_of_step (h : Step p mv.before.phase mv.input mv.after.phase mv.effects)
    (hu : mv.before.phase.Unasked p) (hw : mv.isWelcome = false)
    (hcon : mv.after.phase.isConnected) :
    mv.after.phase.isOpen = (!mv.reassures && (mv.asks || mv.before.phase.isOpen)) := by
  have hstep := h
  generalize ha : mv.before.phase = a, hi : mv.input = i, hb : mv.after.phase = b,
    he : mv.effects = es at h
  rw [← ha, ← hb]
  cases h with
  | stop | opened =>
      rw [hb] at hcon
      cases hcon
  | away haway =>
      rw [hb, Phase.not_isConnected_of_isAway haway] at hcon
      cases hcon
  | accepted => simp [Move.isWelcome, Move.welcomed?, ha, hb] at hw
  | heard _ hin hup =>
      refine isOpen_of_quiet (by simpa [hi] using hin) (by rw [Move.asks, he]; rfl) ?_
      rw [ha, hb]
      cases a <;> cases hup <;> rfl
  | subscribed _ hans hk =>
      refine isOpen_of_quiet (by simp [hi]) (asks_eq_false_of_step hstep (by simp [hi])) ?_
      rw [ha, hb, isOpen_of_afterAnswer hans]
      exact hk
  | own hr _ _ hack =>
      obtain ⟨-, hkeep, -⟩ := receipt_of_acknowledge hack
      refine isOpen_of_receive hstep hi ha hr ?_
      simp [hb, Phase.isOpen, hkeep]
  | repeated hr | offered hr | released hr =>
      refine isOpen_of_receive hstep hi ha hr ?_
      simp [hb, Phase.isOpen]
  | answered hr _ hans =>
      refine isOpen_of_receive hstep hi ha hr ?_
      simp [hb, isOpen_of_afterAnswer hans]
  | ignored hr _ _ _ hk =>
      refine isOpen_of_receive hstep hi ha hr ?_
      rw [hb, Phase.isOpen, hk]
      split_ifs with hpong <;> simp [hpong, KeepAlive.answered]
  | pinged hk hs =>
      obtain ⟨-, hopen⟩ := KeepAlive.outstanding_of_tick? hk
      have hask : mv.asks := by
        cases Connection.encode_of_send hs
        rw [Move.asks, he]
        rfl
      have hquiet : mv.reassures = false := by
        have hnone : mv.received? = none := received?_eq_none (by simp [hi])
        simp [Move.reassures, hnone]
      rw [hb, hask, hquiet]
      exact hopen
  | handed hack =>
      obtain ⟨-, hkeep, -⟩ := receipt_of_acknowledge hack
      refine isOpen_of_quiet (by simp [hi]) (asks_eq_false_of_step hstep (by simp [hi])) ?_
      rw [ha, hb, Phase.isOpen, Phase.isOpen, hkeep]
  | reported hk =>
      refine isOpen_of_quiet (by simp [hi]) (asks_eq_false_of_step hstep (by simp [hi])) ?_
      rw [ha, hb, Phase.isOpen, Phase.isOpen]
      rcases hk with rfl | ⟨hnone, now, rfl⟩
      · rfl
      · -- without subscriptions no question has been asked yet
        rw [ha] at hu
        exact (hu hnone).2.symm

/-! ### Runs -/

/-- The last question on the current connection has no answer that has been read. -/
def isUnanswered (ms : List Move) : Bool := (since Move.reassures (current ms)).any Move.asks

theorem Run.unasked {shutdown : Bool} (h : Run p (p.start shutdown) ms st) :
    st.phase.Unasked p := by
  refine h.induction (fun _ st => st.phase.Unasked p) ?start fun ms mv ih _ hstep => ih.step hstep
  cases shutdown <;> trivial

theorem isOpen_of_isWelcome (h : mv.isWelcome) : mv.after.phase.isOpen = false := by
  unfold Move.isWelcome Move.welcomed? at h
  split at h
  · rename_i hafter
    rw [hafter]
    rfl
  · cases h

/-- A question is open if and only if no answer to it has been read. -/
theorem Run.isOpen_eq {shutdown : Bool} (h : Run p (p.start shutdown) ms st)
    (hc : st.phase.isConnected) : st.phase.isOpen = isUnanswered ms := by
  induction h with
  | nil => cases shutdown <;> cases hc
  | snoc h hs ih =>
      rename_i ms mv
      have hstep := step_of_step? hs
      cases hw : mv.isWelcome with
      | true =>
          rw [isOpen_of_isWelcome hw, isUnanswered, current_of_isWelcome hw, since_nil,
            List.any_nil]
      | false =>
          rw [isOpen_of_step hstep h.unasked hw hc, ih (isConnected_of_step hstep hw hc),
            isUnanswered, isUnanswered, current_concat hw]
          cases hr : mv.reassures with
          | true => rw [since_concat_of_pos hr, List.any_nil, Bool.not_true, Bool.false_and]
          | false => simp [since_concat_of_neg hr, Bool.or_comm]

/-- What it takes to give the broker up for want of an answer. -/
theorem open_of_losing (h : Step p a i b es) (hb : b = .losing (.timeout .pingResp))
    (ha : a.connection? = some c) : c.ending = some (.timeout .pingResp) ∨
      i = .link .ping ∧ ∃ s, a = .serving s ∧ s.keepAlive.outstanding := by
  have hnone : b.connection? = none := by rw [hb]; rfl
  cases h with
  | away _ _ _ _ ht => exact ht c ha hb
  | heard _ _ hup =>
      cases a with
      | greeting | welcoming | serving | delivering | reporting =>
          cases hup
          cases hb
      | _ => cases hup
  | subscribed _ hans | answered _ _ hans =>
      rw [connection?_of_afterAnswer hans] at hnone
      cases hnone
  | _ => cases hb

/-- The next question gives the broker up if the last one is open. -/
theorem timesOut_of_isOpen
    (hs : p.step? mv.world mv.before mv.input = some (mv.after, mv.effects))
    (hi : mv.input = .link .ping) (hopen : mv.before.phase.isOpen) : mv.timesOut := by
  rw [hi] at hs
  simp only [step?, link?] at hs
  split at hs
  · rename_i s hphase
    split_ifs at hs
    have hnone : s.keepAlive.tick? mv.world.now = none := by
      rw [hphase] at hopen
      exact if_pos hopen
    simp only [pinged, hnone, drop] at hs
    obtain ⟨hafter, -⟩ := Prod.mk.inj (Option.some.inj hs)
    rw [Move.timesOut, ← hafter, hphase]
    rfl
  · cases hs

theorem timesOut_eq_true_iff :
    mv.timesOut ↔ mv.after.phase = .losing (.timeout .pingResp) ∧ mv.before.phase.isConnected := by
  unfold Move.timesOut
  split
  · rename_i hafter
    simp [hafter]
  · rename_i hne
    simp only [Bool.false_eq_true, false_iff, not_and]
    exact fun hafter => absurd hafter hne

/-- A tick that finds a question open gives the broker up, and nothing else does. -/
theorem Run.timesOut_iff {shutdown : Bool} (h : Run p (p.start shutdown) ms mv.before)
    (hs : p.step? mv.world mv.before mv.input = some (mv.after, mv.effects)) :
    mv.timesOut ↔ mv.input = .link .ping ∧ isUnanswered ms := by
  constructor
  · intro hout
    obtain ⟨hafter, hcon⟩ := timesOut_eq_true_iff.1 hout
    obtain ⟨c, hc⟩ := Phase.exists_connection? hcon
    rcases open_of_losing (step_of_step? hs) hafter hc with hend | ⟨hi, s, hserving, hopen⟩
    · exact absurd hend (h.ending_ne_timeout hc .pingResp)
    · rw [← h.isOpen_eq hcon, hserving]
      exact ⟨hi, hopen⟩
  · rintro ⟨hi, hun⟩
    have hcon : mv.before.phase.isConnected := by
      rw [hi] at hs
      simp only [step?, link?] at hs
      split at hs
      · rename_i s hphase
        rw [hphase]
        rfl
      · cases hs
    rw [← h.isOpen_eq hcon] at hun
    exact timesOut_of_isOpen hs hi hun

/-- An answer that has come in waits until it is read. -/
theorem Run.mem_waiting {front mid : List Move} (h : Run p st₀ (front ++ mid) st)
    (hc : st.phase.isConnected) (hw : ∀ mv ∈ mid, mv.isWelcome = false)
    (hr : ∀ mv ∈ mid, mv.reassures = false) (hb : ∃ mv ∈ mid, mv.brings) :
    .pingResp ∈ st.phase.waiting := by
  induction mid using List.reverseRecOn generalizing st with
  | nil => simp at hb
  | append_singleton mid last ih =>
      rw [← List.append_assoc] at h
      obtain ⟨hrun, hs, rfl⟩ := run_concat_iff.1 h
      simp only [List.mem_append, List.mem_singleton] at hw hr hb
      have hstep := step_of_step? hs
      have hbefore := isConnected_of_step hstep (hw last (.inr rfl)) hc
      have hle := count_waiting_le hstep hbefore hc (hr last (.inr rfl))
      refine List.count_pos_iff.1 ?_
      obtain ⟨mv, hmv | rfl, hbrings⟩ := hb
      · have hmem := ih hrun hbefore (fun w hw' => hw w (.inl hw')) (fun w hw' => hr w (.inl hw'))
          ⟨mv, hmv, hbrings⟩
        have hpos := List.count_pos_iff.2 hmem
        omega
      · have hlt := of_decide_eq_true hbrings
        omega

/-- After a question that is still open, and that is the last one, no answer has been read. -/
theorem reassures_eq_false {before mid : List Move} (hun : isUnanswered ms)
    (hcurrent : current ms = before ++ mid) (hasks : ∀ w ∈ mid, w.asks = false) :
    ∀ w ∈ mid, w.reassures = false := by
  intro w hw
  rw [← Bool.not_eq_true]
  intro hread
  obtain ⟨q, hq, hask⟩ := List.any_eq_true.1 hun
  rw [hcurrent] at hq
  have hmem := mem_of_mem_since_append hq ⟨w, hw, hread⟩
  simp [hasks q hmem] at hask

/-- A broker that has answered its last question is given up only while an answer waits to be
read. -/
theorem Run.mem_waiting_of_timesOut {shutdown : Bool} {before mid : List Move}
    (h : Run p (p.start shutdown) ms mv.before)
    (hs : p.step? mv.world mv.before mv.input = some (mv.after, mv.effects)) (hout : mv.timesOut)
    (hcurrent : current ms = before ++ mid) (hasks : ∀ w ∈ mid, w.asks = false)
    (hbrings : ∃ w ∈ mid, w.brings) : .pingResp ∈ mv.before.phase.waiting := by
  have hun := ((h.timesOut_iff hs).1 hout).2
  have hunread := reassures_eq_false hun hcurrent hasks
  have hkept : ∀ w ∈ mid, w.isWelcome = false := by
    intro w hw
    have hmem : w ∈ current ms := by
      rw [hcurrent]
      exact List.mem_append_right _ hw
    exact eq_false_of_mem_since hmem
  obtain ⟨earlier, hearlier⟩ := exists_append_since Move.isWelcome ms
  have hms : ms = (earlier ++ before) ++ mid := by
    rw [List.append_assoc, ← hcurrent]
    exact hearlier
  rw [hms] at h
  exact h.mem_waiting (timesOut_eq_true_iff.1 hout).2 hkept hunread hbrings

/-- What a run owes to the answers of its broker. -/
structure Attentive (ms : List Move) : Prop where
  /-- The broker is given up when the next question finds that no answer to the last one has been
  read, and only then. -/
  timed_out : ∀ (front : List Move) (mv : Move) (back : List Move), ms = front ++ mv :: back →
    (mv.timesOut ↔ mv.input = .link .ping ∧ isUnanswered front)
  /-- If an answer has come in since the last question, and no answer waits to be read, the broker
  is not given up. -/
  heeded : ∀ (front : List Move) (mv : Move) (back before : List Move) (q : Move) (mid : List Move),
    ms = front ++ mv :: back → current front = before ++ q :: mid → q.asks →
    (∀ w ∈ mid, w.asks = false) → (∃ w ∈ mid, w.brings) →
    .pingResp ∉ mv.before.phase.waiting → mv.timesOut = false

/-- **A run is attentive.** -/
theorem Run.attentive {shutdown : Bool} (h : Run p (p.start shutdown) ms st) : Attentive ms where
  timed_out := by
    rintro front mv back rfl
    obtain ⟨hrun, hs⟩ := h.split
    exact hrun.timesOut_iff hs
  heeded := by
    rintro front mv back before q mid rfl hcurrent - hasks hbrings hnone
    obtain ⟨hrun, hs⟩ := h.split
    rw [← Bool.not_eq_true]
    intro hout
    have hsplit : current front = (before ++ [q]) ++ mid := by simp [hcurrent]
    exact hnone (hrun.mem_waiting_of_timesOut hs hout hsplit hasks hbrings)

/-! ### An answer that has come in -/

/-- A broker accepts the connection and grants the subscription; after the keep-alive time the
subscriber asks whether it is there. -/
def asking : List (Surroundings × Input) :=
  timed 0 [.taken, .link .opened,
    .link (.arrived [0x20, 3, 0, 0, 0, 0x90, 4, 0, 1, 0, 2]), .link .packet, .taken,
    .link .packet, .taken] ++ timed 30000 [.link .ping]

/-- What the broker answers. -/
def answering : List (Surroundings × Input) := timed 31000 [.link (.arrived [0xD0, 0])]

/-- When the next question is due. -/
def Phase.due? : Phase → Option Millis
  | .serving s => some s.keepAlive.next
  | _ => none

/-- Whether the broker is asked, answers and is given up in a move, and when. -/
def Move.tidings (mv : Move) : (Bool × Bool × Bool) × Nat :=
  ((mv.asks, mv.brings, mv.timesOut), mv.world.now)

/-- A broker whose answer is read is asked again, and not given up. -/
theorem attentive_answered :
    ∃ ms st, Run sampler (sampler.start false) ms st ∧ Attentive ms ∧ ms.countP Move.asks = 2 ∧
      ms.countP Move.brings = 1 ∧ ms.any Move.timesOut = false ∧ st.phase.isConnected := by
  have hfacts : (sampler.play? (asking ++ answering ++ timed 60000 [.link .packet, .link .ping]) []
      (sampler.start false)).map (fun (ms, st) => (ms.countP Move.asks, ms.countP Move.brings,
        ms.any Move.timesOut, st.phase.isConnected)) = some (2, 1, false, true) := by decide +kernel
  obtain ⟨⟨ms, st⟩, hplay, hvalues⟩ := Option.map_eq_some_iff.1 hfacts
  simp only [Prod.mk.injEq] at hvalues
  have hrun := Run.nil.of_play? hplay
  exact ⟨ms, st, hrun, hrun.attentive, hvalues⟩

/-- **A broker is given up although it has answered in time**: while a message is handed over the
answer comes in, long before the next question is due, and when the message has been taken the
clock is looked at first. -/
theorem timesOut_answered :
    ∃ front q mid w mv st, Run sampler (sampler.start false) (front ++ q :: mid ++ mv :: []) st ∧
      q.asks ∧ (∀ u ∈ front ++ mid, u.asks = false) ∧ q.after.phase.due? = some 60000 ∧
      w ∈ mid ∧ w.brings ∧ w.world.now = 31000 ∧ mv.timesOut := by
  have hfacts : (sampler.play? (asking ++
      timed 30500 [.link (.arrived (sample false)), .link .packet] ++ answering ++
      timed 60500 [.taken, .link .ping]) [] (sampler.start false)).map (fun (ms, _) =>
        (ms.map Move.tidings, ms[7]?.bind fun q => q.after.phase.due?)) =
      some (List.replicate 7 ((false, false, false), 0) ++ ((true, false, false), 30000) ::
        [((false, false, false), 30500), ((false, false, false), 30500),
          ((false, true, false), 31000), ((false, false, false), 60500)] ++
        [((false, false, true), 60500)], some 60000) := by decide +kernel
  obtain ⟨⟨ms, st⟩, hplay, hvalues⟩ := Option.map_eq_some_iff.1 hfacts
  obtain ⟨htidings, hdue⟩ := Prod.mk.inj hvalues
  obtain ⟨head, last, rfl, hhead, hlast⟩ := List.map_eq_append_iff.1 htidings
  obtain ⟨front, tail, rfl, hfront, htail⟩ := List.map_eq_append_iff.1 hhead
  obtain ⟨q, mid, rfl, hq, hmid⟩ := List.map_eq_cons_iff.1 htail
  obtain ⟨mv, nothing, rfl, hmv, hnothing⟩ := List.map_eq_cons_iff.1 hlast
  obtain rfl := List.map_eq_nil_iff.1 hnothing
  have hlength : front.length = 7 := by simpa using congrArg List.length hfront
  have hsilent : ∀ u ∈ front ++ mid, u.asks = false := by
    have htold : ∀ t ∈ (front ++ mid).map Move.tidings, t.1.1 = false := by
      rw [List.map_append, hfront, hmid]
      decide
    exact fun u hu => htold _ (List.mem_map_of_mem hu)
  have hbrought : ((false, true, false), 31000) ∈ mid.map Move.tidings := by simp [hmid]
  obtain ⟨w, hw, hwtold⟩ := List.mem_map.1 hbrought
  simp only [Move.tidings, Prod.mk.injEq] at hq hmv hwtold
  refine ⟨front, q, mid, w, mv, st, Run.nil.of_play? hplay, hq.1.1, hsilent, ?_, hw, hwtold.1.2.1,
    hwtold.2, hmv.1.2.2⟩
  simpa [List.getElem?_append, hlength] using hdue

end Subscriber

end TopicBridge
