import Keron.Server.Observations

/-! What a client learns of the server's clock from the reply to a ClockSync. -/

namespace Keron.Server

open Keron.Schema.NetMessages ProducerQueues TraceMachines

variable {n : ℕ} {C : Codec} {spurious : Bool}

inductive Sight (n : ℕ)
  | serviced (ev : Event)
  | shown (o : Obs n)

def Sight.serviced? : Sight n → Option Event
  | .serviced ev => some ev
  | .shown _ => none

def Sight.shown? : Sight n → Option (Obs n)
  | .serviced _ => none
  | .shown o => some o

def State.serviced (s : State n) : Action n → List Event
  | .main .event => if s.main = .service then s.pending.take 1 else []
  | _ => []

def State.sights (s : State n) (a : Action n) (os : List (Obs n)) : List (ℤ × Sight n) :=
  ((s.serviced a).map Sight.serviced ++ os.map Sight.shown).map (s.clock, ·)

def timed (n : ℕ) (C : Codec) (spurious : Bool) : Machine (State n) (Action n) (ℤ × Sight n) :=
  (server n C spurious).viewed State.sights

/-- The system clock does not go back. Its count of nanoseconds is a 64-bit integer. -/
def ClockAdvances (s : State n) : Action n → Prop
  | .tick now => s.clock ≤ now ∧ now < 2 ^ 63
  | _ => True

instance (s : State n) (a : Action n) : Decidable (ClockAdvances s a) := by
  cases a <;> unfold ClockAdvances <;> infer_instance

def State.startedAt (n : ℕ) (datastore : Datastore) (events : List Event) (start : ℤ) : State n :=
  { State.initial n datastore events with clock := start }

/-- `enet_host_service` returned the request that `payload` answers at this instant. -/
def RequestedAt (past : List (ℤ × Sight n)) (payload : ENetPacket) (received : ℤ) : Prop :=
  ∃ r, r.packet.serial = payload.serial ∧ (received, .serviced (.receive r)) ∈ past

def StampedAt (past : List (ℤ × Sight n)) (payload : ENetPacket) (now : ℤ) : Prop :=
  ∃ w msg data out, msg.event.packet.serial = payload.serial ∧
    (now, .shown (.examined w msg now data out)) ∈ past

variable (C) in
def InTime (past : List (ℤ × Sight n)) : ℤ × Sight n → Prop
  | (sent, .shown (.dispatched _ ⟨some _, some payload, _, _⟩ _ fate)) =>
    fate ≠ .stale → ∃ received t, RequestedAt past payload received ∧
      (C.getNetMessage payload.data).message = some (.clockSync t) ∧
        (received : ℚ) ≤ 10 ^ 9 * Binary64.value t.serverReception ∧
          10 ^ 9 * Binary64.value t.serverReception ≤ sent
  | _ => True

variable (C) in
/-- A whole number of seconds is read back from the ClockSync that it was put in. -/
def StampsKept : Prop :=
  ∀ t (time : ℤ), ∃ t', (C.getNetMessage (C.finishNetMessageBuffer
    (createClockSync t (Binary64.ofInt time)))).message =
      some (.clockSync ⟨t', Binary64.ofInt time⟩)

/-- A second begins between the receipt of a request and the moment its handler reads the clock. For
a clock before the epoch: between that moment and the sending of the reply. -/
def WholeSecond (received now sent : ℤ) : Prop :=
  ∃ second : ℤ, (if 0 ≤ now then received else now) ≤ 10 ^ 9 * second ∧
    10 ^ 9 * second ≤ if 0 ≤ now then now else sent

def SecondBegins (past : List (ℤ × Sight n)) : ℤ × Sight n → Prop
  | (sent, .shown (.dispatched _ ⟨some _, some payload, _, _⟩ _ fate)) =>
    fate ≠ .stale → ∃ received now, RequestedAt past payload received ∧
      StampedAt past payload now ∧ WholeSecond received now sent
  | _ => True

def Grounded (past : List (ℤ × Sight n)) : ℤ × Sight n → Prop
  | (time, .shown (.examined _ msg now _ _)) =>
    time = now ∧ ∃ received, (received, .serviced (.receive msg.event)) ∈ past
  | (_, .shown (.dispatched w out _ _)) =>
    ∃ time msg now data, (time, .shown (.examined w msg now data (some out))) ∈ past
  | _ => True

abbrev serviced (tr : List (ℤ × Sight n)) : List Event := tr.filterMap fun x => x.2.serviced?
abbrev shown (tr : List (ℤ × Sight n)) : List (Obs n) := tr.filterMap fun x => x.2.shown?

section Run

variable {guard : State n → Action n → Prop} {s₀ s : State n} {acts : List (Action n)}
  {tr : List (ℤ × Sight n)}

lemma serviced_append (tr tr' : List (ℤ × Sight n)) :
    serviced (tr ++ tr') = serviced tr ++ serviced tr' :=
  List.filterMap_append

lemma shown_append (tr tr' : List (ℤ × Sight n)) : shown (tr ++ tr') = shown tr ++ shown tr' :=
  List.filterMap_append

lemma serviced_sights (s : State n) (a : Action n) (os : List (Obs n)) :
    serviced (s.sights a os) = s.serviced a := by
  simp [State.sights, List.filterMap_map, Function.comp_def, Sight.serviced?]

lemma shown_sights (s : State n) (a : Action n) (os : List (Obs n)) :
    shown (s.sights a os) = os := by
  simp [State.sights, List.filterMap_map, Function.comp_def, Sight.shown?]

lemma mem_sights {s : State n} {a : Action n} {os : List (Obs n)} {x : ℤ × Sight n} :
    x ∈ s.sights a os ↔ (∃ ev ∈ s.serviced a, x = (s.clock, .serviced ev)) ∨
      ∃ o ∈ os, x = (s.clock, .shown o) := by
  simp [State.sights, eq_comm]

lemma untimed (h : (timed n C spurious).RunWithin guard s₀ acts tr s) :
    (server n C spurious).RunWithin guard s₀ acts (shown tr) s :=
  h.unviewed shown_sights

lemma invariant_of_timed {P : List (ℤ × Sight n) → State n → Prop}
    (h : (timed n C spurious).RunWithin guard s₀ acts tr s) (h₀ : P [] s₀)
    (hstep : ∀ acts tr s a t os, (timed n C spurious).RunWithin guard s₀ acts tr s → guard s a →
      StepCase C spurious s a t os → P tr s → P (tr ++ s.sights a os) t) : P tr s := by
  apply h.invariant h₀
  intro acts tr s a t os hr hi hg hs
  obtain ⟨os, hs', rfl⟩ := Machine.step_of_viewed hs
  exact hstep acts tr s a t os hr hg (step_cases hs').2 hi

lemma inOrder_of_timed (h₀ : -2 ^ 63 ≤ s₀.clock) (hlt : s₀.clock < 2 ^ 63)
    (h : (timed n C spurious).RunWithin ClockAdvances s₀ acts tr s) :
    (-2 ^ 63 ≤ s.clock ∧ s.clock < 2 ^ 63) ∧
      (∀ x ∈ tr, -2 ^ 63 ≤ x.1 ∧ x.1 ≤ s.clock) ∧ tr.Pairwise fun x y => x.1 ≤ y.1 := by
  apply invariant_of_timed h
  · exact ⟨⟨h₀, hlt⟩, by simp, .nil⟩
  · rintro _ tr s a t os - hg hc ⟨hrange, hpast, hsorted⟩
    have hclock : s.clock ≤ t.clock ∧ t.clock < 2 ^ 63 := by
      cases hc with
      | tick now => exact hg
      | _ => exact ⟨le_rfl, hrange.2⟩
    have htime : ∀ x ∈ s.sights a os, x.1 = s.clock := List.forall_mem_map.mpr fun _ _ => rfl
    refine ⟨⟨by omega, hclock.2⟩, fun x hx => ?_, ?_⟩
    · rcases List.mem_append.mp hx with hx | hx
      · have hx' := hpast x hx
        omega
      · have hx' := htime x hx
        omega
    · refine List.pairwise_append.mpr ⟨hsorted, ?_, fun x hx y hy => ?_⟩
      · exact List.pairwise_of_forall_mem_list fun x hx y hy => by rw [htime x hx, htime y hy]
      · rw [htime y hy]
        exact (hpast x hx).2

end Run

section Requests

variable {E : Traffic} {D : Datastore} {acts : List (Action n)} {tr : List (Obs n)}
  {ttr : List (ℤ × Sight n)} {s t : State n} {a : Action n} {os : List (Obs n)} {start : ℤ}
  {guard : State n → Action n → Prop}

lemma serviced_step (h : StepCase C spurious s a t os) :
    s.main.current ++ s.serviced a = events os ++ t.main.current := by
  have he := events_step h
  have hp : s.pending = s.serviced a ++ t.pending := by
    cases h with
    | served hm hp => simp [State.serviced, hm, hp]
    | nullPacket hm _ => cases ‹MainAction n› <;> simp [State.serviced, hm]
    | _ => rfl
  rw [hp, ← List.append_assoc] at he
  exact (List.append_cancel_right he).symm

lemma serviced_run
    (h : (timed n C spurious).RunWithin guard (.startedAt n D E.events start) acts ttr s) :
    serviced ttr = events (shown ttr) ++ s.main.current := by
  apply invariant_of_timed h
  · rfl
  · intro _ ttr s a t os _ _ hc hi
    rw [serviced_append, serviced_sights, shown_append, shown_sights, events, project_append, hi,
      List.append_assoc, serviced_step hc, List.append_assoc]

lemma untimed_run
    (h : (timed n C spurious).RunWithin guard (.startedAt n D E.events start) acts ttr s) :
    (server n C spurious).Run (.initial n D E.events) (.tick start :: acts) (shown ttr) s := by
  have hstart : (server n C spurious).Run (.initial n D E.events) [.tick start] []
      (.startedAt n D E.events start) :=
    run_of_case rfl (by simp [State.initial]) (.tick start) rfl
  exact hstart.trans (untimed h).run

lemma received_of_taken (h : (server n C spurious).Run (.initial n D E.events) acts tr s)
    {w : Fin n} {msg : Incoming} (hw : s.workers w = .process msg) :
    .receive msg.event ∈ events tr := by
  have hl := examinationLedger_run h msg.event
  have hheld := count_le_tally Worker.reading s.workers w msg.event
  have hone : ((s.workers w).reading).count msg.event = 1 := by simp [hw, Worker.reading]
  have hmem : msg.event ∈ received tr := List.count_pos_iff.mp (by omega)
  obtain ⟨o, ho, hr⟩ := (mem_project _).mp hmem
  rcases o with (_ | r | _) | _ | _ | _ | _ | _ | _ <;> cases hr
  exact (mem_project _).mpr ⟨_, ho, rfl⟩

lemma grounded_mono (before more : List (ℤ × Sight n)) (x : ℤ × Sight n)
    (h : Grounded before x) : Grounded (before ++ more) x := by
  obtain ⟨time, _ | o⟩ := x
  · trivial
  · cases o with
    | examined w msg now data out =>
      obtain ⟨hnow, received, hr⟩ := h
      exact ⟨hnow, received, List.mem_append_left _ hr⟩
    | dispatched w out data fate =>
      obtain ⟨time, msg, now, data, hx⟩ := h
      exact ⟨time, msg, now, data, List.mem_append_left _ hx⟩
    | _ => trivial

lemma mem_of_mem_shown {o : Obs n} (h : o ∈ shown ttr) : ∃ time, (time, .shown o) ∈ ttr := by
  obtain ⟨⟨time, _ | o⟩, hmem, hx⟩ := List.mem_filterMap.mp h <;> cases hx
  exact ⟨time, hmem⟩

lemma mem_of_mem_serviced {ev : Event} (h : ev ∈ serviced ttr) :
    ∃ time, (time, .serviced ev) ∈ ttr := by
  obtain ⟨⟨time, ev | _⟩, hmem, hx⟩ := List.mem_filterMap.mp h <;> cases hx
  exact ⟨time, hmem⟩

lemma grounded_step (h : StepCase C spurious s a t os)
    (hr : (timed n C spurious).RunWithin guard (.startedAt n D E.events start) acts ttr s) :
    ∀ o ∈ os, Grounded ttr (s.clock, .shown o) := by
  have hreceived {w : Fin n} {msg : Incoming} (hw : s.workers w = .process msg) :
      ∃ received, (received, .serviced (.receive msg.event)) ∈ ttr := by
    apply mem_of_mem_serviced
    rw [serviced_run hr]
    exact List.mem_append_left _ (received_of_taken (untimed_run hr) hw)
  have hdispatch {w : Fin n} {out : Outgoing} (hm : s.main = .dispatch w out) :
      ∃ time msg now data, (time, .shown (.examined w msg now data (some out))) ∈ ttr := by
    have hx := dispatching_produced (untimed_run hr) (x := (w, out)) (by simp [hm])
    obtain ⟨o, ho, hp⟩ := (mem_project _).mp hx
    rcases o with _ | ⟨w, msg, now, data, _ | out⟩ | _ | _ | _ | _ | _ <;> cases hp
    obtain ⟨time, hmem⟩ := mem_of_mem_shown ho
    exact ⟨time, msg, now, data, hmem⟩
  cases h with
  | dropped hw _ | silent hw _ | replied hw _ => simpa [Grounded] using hreceived hw
  | broadcast hm _ _ | sent _ hm _ _ _ | stale hm _ _ =>
    simpa [Grounded] using hdispatch hm
  | takeOutgoing _ _ | missOutgoing _ _ =>
    exact forall_mem_discard (P := fun o => Grounded ttr (s.clock, .shown o)) (fun _ => trivial) _
  | returned _ _ =>
    exact forall_mem_leftovers (P := fun o => Grounded ttr (s.clock, .shown o)) (fun _ => trivial)
      (fun _ _ => trivial) s
  | _ => simp [Grounded]

lemma grounded_run
    (h : (timed n C spurious).RunWithin guard (.startedAt n D E.events start) acts ttr s) :
    Justified Grounded ttr := by
  apply invariant_of_timed h
  · exact justified_nil
  · intro _ ttr s a t os hr _ hc hj
    refine hj.append_of_mono grounded_mono fun x hx => ?_
    rcases mem_sights.mp hx with ⟨ev, _, rfl⟩ | ⟨o, ho, rfl⟩
    · simp [Grounded]
    · exact grounded_step hc hr o ho

lemma time_unique {β κ : Type} {f : Sight n → Option β} {key : β → κ}
    (hn : ((ttr.filterMap fun x => f x.2).map key).Nodup) {time time' : ℤ} {o o' : Sight n}
    {x x' : β} (h : (time, o) ∈ ttr) (h' : (time', o') ∈ ttr) (hx : f o = some x)
    (hx' : f o' = some x') (hkey : key x = key x') : time = time' := by
  let g (y : ℤ × Sight n) : Option (ℤ × β) := (f y.2).map (y.1, ·)
  have hmap : (ttr.filterMap g).map (fun y => key y.2) =
      (ttr.filterMap fun x => f x.2).map key := by
    simp only [List.map_filterMap, g, Option.map_map]
    rfl
  rw [← hmap] at hn
  have hmem : (time, x) ∈ ttr.filterMap g := List.mem_filterMap.mpr ⟨_, h, by simp [g, hx]⟩
  have hmem' : (time', x') ∈ ttr.filterMap g := List.mem_filterMap.mpr ⟨_, h', by simp [g, hx']⟩
  exact congrArg Prod.fst (List.inj_on_of_nodup_map hn hmem hmem' hkey)

lemma serviced_nodup
    (h : (timed n C spurious).RunWithin guard (.startedAt n D E.events start) acts ttr s) :
    ((receptions (serviced ttr)).map (·.packet.serial)).Nodup := by
  have he := events_run (untimed_run h)
  rw [← serviced_run h] at he
  have hn := E.serials_nodup
  rw [he, receptions, List.filterMap_append, List.map_append] at hn
  exact hn.of_append_left

end Requests

lemma seconds_of_nonneg {now : ℤ} (h : 0 ≤ now) :
    10 ^ 9 * seconds now ≤ now ∧ now < 10 ^ 9 * (seconds now + 1) := by
  rw [seconds, Int.tdiv_eq_ediv_of_nonneg h]
  omega

lemma seconds_of_neg {now : ℤ} (h : now < 0) :
    now ≤ 10 ^ 9 * seconds now ∧ 10 ^ 9 * (seconds now - 1) < now := by
  have hneg : seconds now = -(-now / 1000000000) := by
    rw [← Int.tdiv_eq_ediv_of_nonneg (by omega), Int.neg_tdiv, neg_neg, seconds]
  omega

lemma natAbs_seconds_lt {now : ℤ} (hlow : -2 ^ 63 ≤ now) (hhigh : now < 2 ^ 63) :
    (seconds now).natAbs < 2 ^ 53 := by
  rcases lt_or_ge now 0 with hnow | hnow
  · have hs := seconds_of_neg hnow
    omega
  · have hs := seconds_of_nonneg hnow
    omega

lemma stamp_iff {received now sent : ℤ} (hr : received ≤ now) (hs : now ≤ sent) :
    received ≤ 10 ^ 9 * seconds now ∧ 10 ^ 9 * seconds now ≤ sent ↔
      WholeSecond received now sent := by
  by_cases hnow : 0 ≤ now
  · obtain ⟨hle, hlt⟩ := seconds_of_nonneg hnow
    simp only [WholeSecond, hnow, if_true]
    constructor
    · rintro ⟨hlow, -⟩
      exact ⟨seconds now, hlow, hle⟩
    · rintro ⟨second, hlow, hhigh⟩
      constructor <;> omega
  · obtain ⟨hle, hlt⟩ := seconds_of_neg (not_le.mp hnow)
    simp only [WholeSecond, hnow, if_false]
    constructor
    · rintro ⟨-, hhigh⟩
      exact ⟨seconds now, hle, hhigh⟩
    · rintro ⟨second, hlow, hhigh⟩
      constructor <;> omega

section Replies

variable {E : Traffic} {D : Datastore} {acts : List (Action n)} {past after : List (ℤ × Sight n)}
  {s : State n} {guard : State n → Action n → Prop} {start sent : ℤ} {w : Fin n} {p : Slot}
  {payload : ENetPacket} {generation data : Pointer} {channelID : Byte} {fate : Fate}

lemma reply_spec (h₀ : -2 ^ 63 ≤ start) (hlt : start < 2 ^ 63)
    (h : (timed n C spurious).RunWithin ClockAdvances (.startedAt n D E.events start) acts
      (past ++
        (sent, .shown (.dispatched w ⟨some p, some payload, generation, channelID⟩ data fate)) ::
          after) s) :
    ∃ received now t, (RequestedAt past payload received ∧ StampedAt past payload now) ∧
      (received ≤ now ∧ now ≤ sent ∧ -2 ^ 63 ≤ now ∧ now < 2 ^ 63) ∧
        payload.data = C.finishNetMessageBuffer
          (createClockSync t (Binary64.ofInt (seconds now))) := by
  have hgrounded := grounded_run h
  obtain ⟨hrange, hbounds, hsorted⟩ := inOrder_of_timed h₀ hlt h
  obtain ⟨hpast, -, hlast⟩ := List.pairwise_append.mp hsorted
  obtain ⟨now, msg, now', data', hexamined⟩ := hgrounded past _ after rfl
  obtain ⟨before, between, rfl, rfl, received, hreceived⟩ := hgrounded.left.of_mem hexamined
  have hsent : now ≤ sent := hlast _ hexamined _ List.mem_cons_self
  have hearlier : received ≤ now :=
    (List.pairwise_append.mp hpast).2.2 _ hreceived _ List.mem_cons_self
  have hnow := hbounds _ (List.mem_append_left _ hexamined)
  obtain ⟨world, rfl, -, hwork⟩ := sound_run (untimed_run h)
    (.examined w msg now data' (some ⟨some p, some payload, generation, channelID⟩))
      (by simp [Sight.shown?])
  have hserial := serial_of_work hwork rfl
  have hcreated := (created_iff_of_work hwork).mpr (by simp)
  rcases outgoing_of_work hwork with ⟨-, hrelay⟩ | ⟨t, -, -, hreply⟩
  · cases hrelay
  · refine ⟨received, world.now, t.clientTransmission, ⟨⟨msg.event, hserial.symm, ?_⟩,
      ⟨w, msg, data', _, hserial.symm, hexamined⟩⟩, by omega, ?_⟩
    · exact List.mem_append_left _ hreceived
    · have hpayload := congrArg Outgoing.payload hreply
      simp only [clocksyncReply, enetPacketCreate, hcreated, if_true, Option.some.injEq] at hpayload
      rw [hpayload]

lemma requestedAt_unique
    (h : (timed n C spurious).RunWithin guard (.startedAt n D E.events start) acts (past ++ after)
      s) {received received' : ℤ} (hr : RequestedAt past payload received)
    (hr' : RequestedAt past payload received') : received = received' := by
  obtain ⟨r, hserial, hmem⟩ := hr
  obtain ⟨r', hserial', hmem'⟩ := hr'
  have hn := serviced_nodup h
  rw [receptions, List.filterMap_filterMap] at hn
  exact time_unique (f := fun x => x.serviced?.bind _) hn (List.mem_append_left _ hmem)
    (List.mem_append_left _ hmem') rfl rfl (hserial.trans hserial'.symm)

lemma stampedAt_unique
    (h : (timed n C spurious).RunWithin guard (.startedAt n D E.events start) acts (past ++ after)
      s) {now now' : ℤ} (hs : StampedAt past payload now) (hs' : StampedAt past payload now') :
    now = now' := by
  obtain ⟨w, msg, data, out, hserial, hmem⟩ := hs
  obtain ⟨w', msg', data', out', hserial', hmem'⟩ := hs'
  have hn := examined_nodup (untimed_run h)
  rw [examined, project, List.filterMap_filterMap] at hn
  exact time_unique (f := fun x => x.shown?.bind _) hn (List.mem_append_left _ hmem)
    (List.mem_append_left _ hmem') rfl rfl (hserial.trans hserial'.symm)

lemma inTime_iff_secondBegins (h₀ : -2 ^ 63 ≤ start) (hlt : start < 2 ^ 63)
    (hkept : StampsKept C) {x : ℤ × Sight n}
    (h : (timed n C spurious).RunWithin ClockAdvances (.startedAt n D E.events start) acts
      (past ++ x :: after) s) : InTime C past x ↔ SecondBegins past x := by
  obtain ⟨sent, o⟩ := x
  rcases o with _ | (_ | _ | _ | ⟨w, ⟨_ | p, _ | payload, generation, channelID⟩, data, fate⟩ |
    _ | _ | _)
  case shown.dispatched.some.some =>
    obtain ⟨received, now, t, ⟨hr, hs⟩, ⟨hrn, hns, hlow, hhigh⟩, hdata⟩ := reply_spec h₀ hlt h
    obtain ⟨t', hmessage⟩ := hkept t (seconds now)
    rw [← hdata] at hmessage
    have hstamp : ((received : ℚ) ≤ 10 ^ 9 * Binary64.value (Binary64.ofInt (seconds now)) ∧
        10 ^ 9 * Binary64.value (Binary64.ofInt (seconds now)) ≤ (sent : ℚ)) ↔
          WholeSecond received now sent := by
      rw [Binary64.value_ofInt (natAbs_seconds_lt hlow hhigh)]
      exact Iff.trans (by norm_cast) (stamp_iff hrn hns)
    apply forall_congr'
    intro _
    constructor
    · rintro ⟨received', t'', hr', hm, hbounds⟩
      obtain rfl := requestedAt_unique h hr hr'
      rw [hmessage] at hm
      cases hm
      exact ⟨received, now, hr, hs, hstamp.mp hbounds⟩
    · rintro ⟨received', now', hr', hs', hsecond⟩
      obtain rfl := requestedAt_unique h hr hr'
      obtain rfl := stampedAt_unique h hs hs'
      exact ⟨received, _, hr, hmessage, hstamp.mpr hsecond⟩
  all_goals exact Iff.rfl

end Replies

lemma wire_stampsKept : StampsKept wire := fun t time =>
  ⟨t, by rw [(wire_clockSync t (Binary64.ofInt time)).2]; rfl⟩

def answeredAt (time : ℤ) : Outgoing :=
  clocksyncReply wire ⟨time, fun _ => nullptr, true⟩ clockRequest 0

def beforeAnswer (time : ℤ) : List (ℤ × Sight 1) :=
  let msg : Incoming := ⟨nullptr, clockRequest⟩
  [(time, .serviced (.receive clockRequest)), (time, .shown (.event (.receive clockRequest))),
    (time, .shown (.examined only msg time nullptr (some (answeredAt time)))),
    (time, .shown (.freed only msg))]

lemma answer_at (time : ℤ) : ∃ s, (timed 1 wire false).RunWithin ClockAdvances
    (.startedAt 1 .empty (Traffic.single clockRequest).events time) (answer true)
      (beforeAnswer time ++ [(time, .shown (.dispatched only (answeredAt time) nullptr .accepted))])
        s :=
  ⟨_, Machine.run_of_exec rfl⟩

lemma secondBegins_answer (time : ℤ) : SecondBegins (beforeAnswer time)
    (time, .shown (.dispatched only (answeredAt time) nullptr .accepted)) ↔
      WholeSecond time time time := by
  constructor
  · intro h
    obtain ⟨received, now, ⟨r, -, hr⟩, ⟨w, msg, data, out, -, hs⟩, hsecond⟩ := h (by decide)
    obtain ⟨rfl, -⟩ : received = time ∧ r = clockRequest := by simpa [beforeAnswer] using hr
    obtain ⟨rfl, -⟩ : now = received ∧ _ := by simpa [beforeAnswer] using hs
    exact hsecond
  · intro h _
    exact ⟨time, time, ⟨clockRequest, rfl, by simp [beforeAnswer]⟩,
      ⟨only, ⟨nullptr, clockRequest⟩, nullptr, some (answeredAt time), rfl, by simp [beforeAnswer]⟩,
      h⟩

end Keron.Server
