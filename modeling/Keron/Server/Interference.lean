import Keron.Server.Traces

/-! Packets that a worker drops leave no mark on the calls of the main loop. -/

namespace Keron.Server

open Keron.Schema.NetMessages ProducerQueues TraceMachines

variable {n : ℕ} {C : Codec} {spurious : Bool}

def wellFormed (C : Codec) : Event → Bool
  | .receive r => decide (Dispatched C r)
  | _ => true

inductive Visible
  | call (c : Call)
  | reading (serial : ℕ) (now : ℤ)
  deriving DecidableEq, Repr

@[simp] def Obs.visible? : Obs n → Option Visible
  | .examined _ msg now _ (some _) => some (.reading msg.event.packet.serial now)
  | .dispatched _ out _ fate => if fate = .stale then none else some (.call out.call)
  | _ => none

@[simp] abbrev visible (tr : List (Obs n)) : List Visible := project Obs.visible? tr

def Keeps (C : Codec) : Worker → Worker → Prop
  | .process msg, pc => pc = if Dispatched C msg.event then .process msg else .poll
  | .enqueue msg out, pc => pc = .enqueue msg out
  | .poll, pc | .sleep, pc => pc = .poll
  | .test, pc | .done, pc => pc = .test ∨ pc = .poll

structure Alike (C : Codec) (s t : State n) : Prop where
  clock : t.clock = s.clock
  data : t.data = s.data
  datastore : t.datastore = s.datastore
  outgoings : t.outgoings = s.outgoings
  crash : t.crash = none
  workers : ∀ w, Keeps C (s.workers w) (t.workers w)

structure SameInput (s t : State n) : Prop where
  pending : t.pending = s.pending
  incomings : t.incomings = s.incomings
  stop : t.stop = s.stop

structure SameMain (s t : State n) : Prop extends SameInput s t where
  main : t.main = s.main

def Main.inBody : Main n → Bool
  | .process (some (.receive _)) => false
  | .process _ | .drain _ | .dispatch _ _ => true
  | _ => false

def Dead (s : State n) : Prop := s.crash ≠ none ∨ s.main = .returned

lemma dispatched_iff (world : World) (r : Reception) :
    Dispatched C r ↔ ¬ (work C world r = .rejected ∨ work C world r = .unhandled) := by
  have hcase := work_spec C world r
  generalize work C world r = v at hcase
  have hdispatched {id : Byte} (hv : C.IsVerified id r.packet.data) :
      Dispatched C r ↔ id.val < initializeMessagesHandlers.length := by
    rw [Dispatched, hv.2]
    exact and_iff_right hv.1
  cases hcase with
  | rejected hv => simp [Dispatched, hv]
  | unhandled hv => rw [hdispatched hv]; decide
  | silent hv => rcases hv with hv | hv <;> rw [hdispatched hv] <;> decide
  | chat hv _ _ | chatNoTable hv _ | chatNoString hv _ _ | clocksync hv _ | clocksyncNoTable hv _ =>
    simpa [hdispatched hv] using! (by decide)

lemma dispatched_of_work {world : World} {r : Reception} {out : Option Outgoing}
    (h : work C world r = .handled out) : Dispatched C r := by
  simp [dispatched_iff world, h]

section Step

variable {s s' t t' : State n} {a b : Action n} {os os' : List (Obs n)} {R : State n → Prop}

lemma matched_none (hv : visible os = []) (hR : R t) :
    ∃ bs os' t', (server n C spurious).Run t bs os' t' ∧ visible os' = visible os ∧ R t' :=
  ⟨[], [], t, .nil, hv.symm, hR⟩

lemma matched_one (hcrash : t.crash = none) (hmain : t.main ≠ .returned)
    (hc : StepCase C spurious t b t' os') (ht : t'.crash = none) (hv : visible os' = visible os)
    (hR : R t') :
    ∃ bs os' t', (server n C spurious).Run t bs os' t' ∧ visible os' = visible os ∧ R t' :=
  ⟨[b], os', t', run_of_case hcrash hmain hc ht, hv, hR⟩

lemma Alike.setWorker {w : Fin n} {pc pc' : Worker} (h : Alike C s t) (hk : Keeps C pc pc') :
    Alike C (s.setWorker w pc) (t.setWorker w pc') := by
  refine { h with workers := fun v => ?_ }
  rcases eq_or_ne v w with rfl | hne
  · rwa [State.setWorker_self, State.setWorker_self]
  · rw [State.setWorker_of_ne s pc hne, State.setWorker_of_ne t pc' hne]
    exact h.workers v

lemma Alike.setWorker_left {w : Fin n} {pc : Worker} (h : Alike C s t)
    (hk : Keeps C pc (t.workers w)) : Alike C (s.setWorker w pc) t := by
  refine { h with workers := fun v => ?_ }
  rcases eq_or_ne v w with rfl | hne
  · rwa [State.setWorker_self]
  · rw [State.setWorker_of_ne s pc hne]
    exact h.workers v

lemma sameMain_setWorker (s : State n) (w : Fin n) (pc : Worker) :
    SameMain s (s.setWorker w pc) :=
  ⟨⟨rfl, rfl, rfl⟩, rfl⟩

lemma worker_matched {w : Fin n} {a : WorkerAction}
    (h : StepCase C spurious s (.worker w a) s' os) (ha : Alike C s t)
    (hstop : s.stop = 0 → t.stop = 0) (hmain : t.main ≠ .returned) (htake : a ≠ .take)
    (hs : s'.crash = none) : SameMain s s' ∧ ∃ bs os' t', (server n C spurious).Run t bs os' t' ∧
      visible os' = visible os ∧ (Alike C s' t' ∧ SameMain t t') := by
  have hk := ha.workers w
  have hworld (created : Bool) : t.world created = s.world created := by
    rw [State.world, State.world, ha.clock, ha.data]
  cases h with
  | workerContinue hw hzero =>
    rw [hw] at hk
    refine ⟨sameMain_setWorker .., ?_⟩
    rcases hk with hk | hk
    · exact matched_one ha.crash hmain (.workerContinue hk (hstop hzero)) ha.crash rfl
        ⟨ha.setWorker rfl, sameMain_setWorker ..⟩
    · exact matched_none rfl ⟨ha.setWorker_left hk, ⟨⟨rfl, rfl, rfl⟩, rfl⟩⟩
  | workerLeave hw _ =>
    rw [hw] at hk
    exact ⟨sameMain_setWorker .., matched_none rfl ⟨ha.setWorker_left hk, ⟨⟨rfl, rfl, rfl⟩, rfl⟩⟩⟩
  | missIncoming hw _ =>
    rw [hw] at hk
    exact ⟨sameMain_setWorker .., matched_none rfl ⟨ha.setWorker_left hk, ⟨⟨rfl, rfl, rfl⟩, rfl⟩⟩⟩
  | wake hw =>
    rw [hw] at hk
    exact ⟨sameMain_setWorker ..,
      matched_none rfl ⟨ha.setWorker_left (.inr hk), ⟨⟨rfl, rfl, rfl⟩, rfl⟩⟩⟩
  | dropped hw hwork =>
    rw [hw, Keeps, if_neg (mt (dispatched_iff _ _).mp (not_not.mpr hwork))] at hk
    exact ⟨sameMain_setWorker ..,
      matched_none rfl ⟨ha.setWorker_left hk, ⟨⟨rfl, rfl, rfl⟩, rfl⟩⟩⟩
  | silent hw hwork =>
    rw [hw, Keeps, if_pos (dispatched_of_work hwork)] at hk
    rw [← hworld] at hwork
    exact ⟨sameMain_setWorker .., matched_one ha.crash hmain (.silent hk hwork) ha.crash rfl
      ⟨ha.setWorker rfl, sameMain_setWorker ..⟩⟩
  | replied hw hwork =>
    rw [hw, Keeps, if_pos (dispatched_of_work hwork)] at hk
    rw [← hworld] at hwork
    exact ⟨sameMain_setWorker .., matched_one ha.crash hmain (.replied hk hwork) ha.crash
      (by simp [ha.clock]) ⟨ha.setWorker rfl, sameMain_setWorker ..⟩⟩
  | @enqueued w msg out hw =>
    rw [hw] at hk
    have ha' : Alike C { s with outgoings := s.outgoings.enqueue w out }
        { t with outgoings := t.outgoings.enqueue w out } :=
      { ha with outgoings := by rw [ha.outgoings] }
    exact ⟨⟨⟨rfl, rfl, rfl⟩, rfl⟩, matched_one ha.crash hmain (.enqueued hk) ha.crash rfl
      ⟨ha'.setWorker rfl, ⟨⟨rfl, rfl, rfl⟩, rfl⟩⟩⟩
  | takeIncoming _ _ => exact absurd rfl htake
  | fault _ _ => cases hs

def BodyEnds (spurious : Bool) (s : State n) : Prop :=
  s.main = .test ∧ (spurious = true ∨ ∀ w, s.outgoings w = [])

lemma main_matched {a : MainAction n} (h : StepCase C spurious s (.main a) s' os)
    (ha : Alike C s t) (hm : t.main = s.main) (hbody : s.main.inBody) (hs : s'.crash = none) :
    (SameInput s s' ∧ (BodyEnds spurious s' ∨ s'.main.inBody)) ∧
      ∃ t', StepCase C spurious t (.main a) t' os ∧ Alike C s' t' ∧ t'.main = s'.main ∧
        SameInput t t' := by
  cases h with
  | idle hmain =>
    exact ⟨⟨⟨rfl, rfl, rfl⟩, .inr rfl⟩, _, .idle (hm.trans hmain), { ha with }, rfl,
      ⟨rfl, rfl, rfl⟩⟩
  | connected hmain =>
    exact ⟨⟨⟨rfl, rfl, rfl⟩, .inr rfl⟩, _, .connected (hm.trans hmain),
      { ha with datastore := by rw [ha.datastore] }, rfl, ⟨rfl, rfl, rfl⟩⟩
  | disconnected hmain =>
    exact ⟨⟨⟨rfl, rfl, rfl⟩, .inr rfl⟩, _, .disconnected (hm.trans hmain),
      { ha with data := by rw [ha.data] }, rfl, ⟨rfl, rfl, rfl⟩⟩
  | takeOutgoing hmain ho =>
    exact ⟨⟨⟨rfl, rfl, rfl⟩, .inr rfl⟩, _, .takeOutgoing (hm.trans hmain) (ha.outgoings ▸ ho),
      { ha with outgoings := by rw [ha.outgoings] }, rfl, ⟨rfl, rfl, rfl⟩⟩
  | missOutgoing hmain ho =>
    exact ⟨⟨⟨rfl, rfl, rfl⟩, .inl ⟨rfl, ho⟩⟩, _,
      .missOutgoing (hm.trans hmain) (ha.outgoings ▸ ho), { ha with }, rfl, ⟨rfl, rfl, rfl⟩⟩
  | broadcast hmain hp hl =>
    exact ⟨⟨⟨rfl, rfl, rfl⟩, .inr rfl⟩, _, .broadcast (hm.trans hmain) hp hl, { ha with }, rfl,
      ⟨rfl, rfl, rfl⟩⟩
  | @sent w packet p accepted hmain hp hd hl =>
    refine ⟨⟨⟨rfl, rfl, rfl⟩, .inr rfl⟩, { t with main := .drain packet.released }, ?_,
      { ha with }, rfl, ⟨rfl, rfl, rfl⟩⟩
    rw [← ha.data] at hd ⊢
    exact .sent accepted (hm.trans hmain) hp hd hl
  | @stale w packet p hmain hp hd =>
    refine ⟨⟨⟨rfl, rfl, rfl⟩, .inr rfl⟩, { t with main := .drain packet }, ?_, { ha with }, rfl,
      ⟨rfl, rfl, rfl⟩⟩
    rw [← ha.data] at hd ⊢
    exact .stale (hm.trans hmain) hp hd
  | serviceFailed _ | nullPacket _ _ => cases hs
  | mainContinue hmain _ | mainLeave hmain _ | timeout hmain | served hmain _ | received hmain
  | returned hmain _ =>
    rw [hmain] at hbody
    cases hbody

end Step

section Cleaning

def Main.cleaned (C : Codec) : Main n → Main n
  | .process (some ev) => .process (if wellFormed C ev then some ev else none)
  | m => m

structure Cleaned (C : Codec) (s t : State n) : Prop extends Alike C s t where
  pending : t.pending = s.pending.filter (wellFormed C)
  incomings : t.incomings = s.incomings.filter fun msg => wellFormed C (.receive msg.event)
  stop : t.stop = s.stop
  main : t.main = s.main.cleaned C

variable {s s' t t' : State n} {a : Action n} {os : List (Obs n)}

lemma Cleaned.of_sameInput (h : Cleaned C s t) (hs : SameInput s s') (ht : SameInput t t')
    (ha : Alike C s' t') (hm : t'.main = s'.main.cleaned C) : Cleaned C s' t' where
  toAlike := ha
  pending := by rw [ht.pending, hs.pending, h.pending]
  incomings := by rw [ht.incomings, hs.incomings, h.incomings]
  stop := by rw [ht.stop, hs.stop, h.stop]
  main := hm

lemma cleaned_of_inBody {m : Main n} (h : m.inBody) : m.cleaned C = m := by
  rcases m with _ | _ | (_ | _ | _ | _) | _ | _ | _ | _ <;> first | rfl | cases h

lemma cleaned_ne_returned {m : Main n} (h : m ≠ .returned) : m.cleaned C ≠ .returned := by
  cases m with
  | process ev => cases ev <;> simp [Main.cleaned]
  | returned => exact absurd rfl h
  | _ => simp [Main.cleaned]

lemma cleaned_take (hc : Cleaned C s t) (hmain : t.main ≠ .returned) {w : Fin n} {msg : Incoming}
    {rest : List Incoming} (hw : s.workers w = .poll) (hi : s.incomings = msg :: rest) :
    ∃ bs os' t', (server n C spurious).Run t bs os' t' ∧ visible os' = visible ([] : List (Obs n)) ∧
      Cleaned C ({ s with incomings := rest }.setWorker w (.process msg)) t' := by
  have hk := hc.workers w
  rw [hw] at hk
  have hti := hc.incomings
  rw [hi] at hti
  by_cases hd : Dispatched C msg.event
  · rw [List.filter_cons_of_pos (by simpa [wellFormed] using hd)] at hti
    have hc' : Alike C { s with incomings := rest }
        { t with incomings := rest.filter fun msg => wellFormed C (.receive msg.event) } :=
      { hc.toAlike with }
    exact matched_one hc.crash hmain (.takeIncoming hk hti) hc.crash rfl
      { hc'.setWorker (by simp [Keeps, hd]) with
        pending := hc.pending, incomings := rfl, stop := hc.stop, main := hc.main }
  · rw [List.filter_cons_of_neg (by simpa [wellFormed] using hd)] at hti
    have hc' : Alike C { s with incomings := rest } t := { hc.toAlike with }
    exact matched_none rfl { hc'.setWorker_left (by simpa [Keeps, hd] using! hk) with
      pending := hc.pending, incomings := hti, stop := hc.stop, main := hc.main }

lemma cleaned_served (hc : Cleaned C s t) (hmain : t.main = .service) {ev : Event}
    {rest : List Event} (hp : s.pending = ev :: rest) :
    ∃ bs os' t', (server n C spurious).Run t bs os' t' ∧ visible os' = visible ([] : List (Obs n)) ∧
      Cleaned C { s with pending := rest, main := .process (some ev) } t' := by
  have hlive : t.main ≠ .returned := by simp [hmain]
  have htp := hc.pending
  rw [hp] at htp
  by_cases hev : wellFormed C ev = true
  · rw [List.filter_cons_of_pos hev] at htp
    exact matched_one hc.crash hlive (.served hmain htp) hc.crash rfl
      { hc with pending := rfl, main := by simp [Main.cleaned, hev] }
  · rw [List.filter_cons_of_neg hev] at htp
    exact matched_one hc.crash hlive (.timeout hmain) hc.crash rfl
      { hc with pending := htp, main := by simp [Main.cleaned, hev] }

lemma cleaned_received (hc : Cleaned C s t) {r : Reception}
    (hm : s.main = .process (some (.receive r))) :
    ∃ bs os' t', (server n C spurious).Run t bs os' t' ∧
      visible os' = visible ([.event (.receive r)] : List (Obs n)) ∧
        Cleaned C { s with incomings := s.incomings ++ [⟨s.data r.peer, r⟩],
                           main := .drain .initial } t' := by
  have hmain := hc.main
  rw [hm, Main.cleaned] at hmain
  by_cases hr : wellFormed C (.receive r) = true
  · rw [if_pos hr] at hmain
    refine matched_one hc.crash (by simp [hmain]) (.received hmain) hc.crash rfl
      { hc with incomings := ?_, main := rfl }
    simp [hc.incomings, hc.data, hr]
  · rw [if_neg hr] at hmain
    refine matched_one hc.crash (by simp [hmain]) (.idle hmain) hc.crash rfl
      { hc with incomings := ?_, main := rfl }
    simp [hc.incomings, hr]

lemma cleaned_matched (h : StepCase C spurious s a s' os) (hc : Cleaned C s t)
    (hmain : s.main ≠ .returned) (hs : ¬ Dead s') :
    ∃ bs os' t', (server n C spurious).Run t bs os' t' ∧ visible os' = visible os ∧
      Cleaned C s' t' := by
  obtain ⟨hcrash', hmain'⟩ := not_or.mp hs
  rw [not_ne_iff] at hcrash'
  have htmain : t.main ≠ .returned := hc.main ▸ cleaned_ne_returned hmain
  cases a with
  | signal =>
    cases h
    exact matched_one hc.crash htmain .signal hc.crash rfl { hc with stop := rfl }
  | tick now =>
    cases h
    exact matched_one hc.crash htmain (.tick now) hc.crash rfl { hc with clock := rfl }
  | worker w a =>
    by_cases htake : a = .take
    · subst htake
      cases h with
      | takeIncoming hw hi => exact cleaned_take hc htmain hw hi
    · obtain ⟨hsame, bs, os', t', hr, hv, ha, hsame'⟩ := worker_matched h hc.toAlike
        (hc.stop ▸ id) htmain htake hcrash'
      exact ⟨bs, os', t', hr, hv, hc.of_sameInput hsame.toSameInput hsame'.toSameInput ha
        (by rw [hsame'.main, hsame.main, hc.main])⟩
  | main a =>
    by_cases hbody : s.main.inBody = true
    · obtain ⟨⟨hsame, hend⟩, t', ht, ha, hm, hsame'⟩ := main_matched h hc.toAlike
        (hc.main.trans (cleaned_of_inBody hbody)) hbody hcrash'
      refine matched_one hc.crash htmain ht ha.crash rfl (hc.of_sameInput hsame hsame' ha ?_)
      rcases hend with ⟨hend, _⟩ | hend
      · rw [hm, hend]
        rfl
      · rw [hm, cleaned_of_inBody hend]
    · cases h with
      | mainContinue hm hzero =>
        have htest : t.main = .test := by rw [hc.main, hm]; rfl
        exact matched_one hc.crash htmain (.mainContinue htest (hc.stop.trans hzero)) hc.crash rfl
          { hc with main := rfl }
      | mainLeave hm hzero =>
        have htest : t.main = .test := by rw [hc.main, hm]; rfl
        exact matched_one hc.crash htmain (.mainLeave htest (hc.stop ▸ hzero)) hc.crash rfl
          { hc with main := rfl }
      | timeout hm =>
        have hservice : t.main = .service := by rw [hc.main, hm]; rfl
        exact matched_one hc.crash htmain (.timeout hservice) hc.crash rfl { hc with main := rfl }
      | served hm hp =>
        have hservice : t.main = .service := by rw [hc.main, hm]; rfl
        exact cleaned_served hc hservice hp
      | received hm => exact cleaned_received hc hm
      | serviceFailed _ | nullPacket _ _ => cases hcrash'
      | returned _ _ => exact absurd rfl hmain'
      | idle hm | connected hm | disconnected hm | takeOutgoing hm _ | missOutgoing hm _
      | broadcast hm _ _ | sent _ hm _ _ _ | stale hm _ _ =>
        rw [hm] at hbody
        exact absurd rfl hbody

end Cleaning

section Restoring

def Main.restored : Main n → Main n
  | .join => .test
  | m => m

structure Restored (C : Codec) (s t : State n) : Prop extends Alike C s t where
  pending : s.pending = t.pending.filter (wellFormed C)
  incomings : s.incomings = t.incomings.filter fun msg => wellFormed C (.receive msg.event)
  stop : t.stop = 0
  main : t.main = s.main.restored

def Clear (C : Codec) (t : State n) : Prop := ∀ ev ∈ t.pending.head?, wellFormed C ev = true

variable {s s' t t' : State n} {a : Action n} {os : List (Obs n)}

lemma Restored.of_sameInput (h : Restored C s t) (hs : SameInput s s') (ht : SameInput t t')
    (ha : Alike C s' t') (hm : t'.main = s'.main.restored) : Restored C s' t' where
  toAlike := ha
  pending := by rw [ht.pending, hs.pending, h.pending]
  incomings := by rw [ht.incomings, hs.incomings, h.incomings]
  stop := by rw [ht.stop, h.stop]
  main := hm

lemma restored_of_inBody {m : Main n} (h : m.inBody) : m.restored = m := by
  cases m <;> first | rfl | cases h

lemma drop_event (hcrash : t.crash = none) (hstop : t.stop = 0) (hm : t.main = .test)
    (ho : spurious = true ∨ ∀ w, t.outgoings w = []) {r : Reception} {rest : List Event}
    (hp : t.pending = .receive r :: rest) : ∃ bs os, (server n C spurious).Run t bs os
      { t with pending := rest, incomings := t.incomings ++ [⟨t.data r.peer, r⟩] } ∧
        visible os = [] := by
  have he : (server n C spurious).exec (fun _ _ => True) t
      [.main .go, .main .event, .main .go, .main .miss] =
        some ({ t with pending := rest, incomings := t.incomings ++ [⟨t.data r.peer, r⟩] },
          [.event (.receive r)]) := by
    simp [Machine.exec, server, step, stepMain, State.processEvent, hcrash, hstop, hm, hp, ho,
      discard]
  exact ⟨_, _, Machine.run_of_exec he, rfl⟩

lemma drop_message (hcrash : t.crash = none) (hstop : t.stop = 0) (hmain : t.main ≠ .returned)
    {w : Fin n} (hw : t.workers w = .poll) {msg : Incoming} {rest : List Incoming}
    (hi : t.incomings = msg :: rest) (hd : ¬ Dispatched C msg.event) : ∃ bs os,
      (server n C spurious).Run t bs os { t with incomings := rest } ∧ visible os = [] := by
  let u : State n := { t with incomings := rest }
  have hwork : work C (t.world true) msg.event = .rejected ∨
      work C (t.world true) msg.event = .unhandled := by
    rwa [dispatched_iff (t.world true), not_not] at hd
  have htake : (server n C spurious).Run t _ _ (u.setWorker w (.process msg)) :=
    run_of_case hcrash hmain (.takeIncoming hw hi) hcrash
  have hnext (pc pc' : Worker) {a : Action n} {os : List (Obs n)} (hc : StepCase C spurious
      (u.setWorker w pc) a ((u.setWorker w pc).setWorker w pc') os) :
      (server n C spurious).Run (u.setWorker w pc) [a] os (u.setWorker w pc') := by
    rw [← State.setWorker_setWorker u w pc pc']
    exact run_of_case hcrash hmain hc hcrash
  have hdrop := hnext (.process msg) .sleep (.dropped (State.setWorker_self ..) hwork)
  have hwake := hnext .sleep .test (.wake (State.setWorker_self ..))
  have hpoll := hnext .test .poll (.workerContinue (State.setWorker_self ..) hstop)
  have hback : u.setWorker w .poll = u := State.setWorker_eq_self hw
  rw [hback] at hpoll
  exact ⟨_, _, ((Machine.RunWithin.trans htake hdrop).trans hwake).trans hpoll, rfl⟩

variable (spurious) in
lemma restored_flush (hr : Restored C s t) (hm : s.main = .test)
    (ho : spurious = true ∨ ∀ w, t.outgoings w = []) :
    ∃ bs os' t', (server n C spurious).Run t bs os' t' ∧ visible os' = [] ∧
      (Restored C s t' ∧ Clear C t') := by
  induction hp : t.pending generalizing t with
  | nil => exact ⟨[], [], t, .nil, rfl, hr, by simp [Clear, hp]⟩
  | cons ev rest ih =>
    by_cases hev : wellFormed C ev = true
    · exact ⟨[], [], t, .nil, rfl, hr, by simpa [Clear, hp] using hev⟩
    obtain ⟨r, rfl⟩ : ∃ r, ev = .receive r := by
      cases ev with
      | receive r => exact ⟨r, rfl⟩
      | _ => exact absurd rfl hev
    have htest : t.main = .test := by rw [hr.main, hm]; rfl
    obtain ⟨bs, os, hrun, hv⟩ := drop_event (C := C) hr.crash hr.stop htest ho hp
    have hr' : Restored C s
        { t with pending := rest, incomings := t.incomings ++ [⟨t.data r.peer, r⟩] } :=
      { hr with
        pending := by rw [hr.pending, hp, List.filter_cons_of_neg hev]
        incomings := by simp [hr.incomings, hev] }
    obtain ⟨bs', os', t', hrun', hv', hclear⟩ := ih hr' ho rfl
    exact ⟨bs ++ bs', os ++ os', t', Machine.RunWithin.trans hrun hrun', by simp_all, hclear⟩

lemma restored_take (hr : Restored C s t) (hmain : t.main ≠ .returned) {w : Fin n} {msg : Incoming}
    {rest : List Incoming} (hw : s.workers w = .poll) (hi : s.incomings = msg :: rest) :
    ∃ bs os' t', (server n C spurious).Run t bs os' t' ∧ visible os' = visible ([] : List (Obs n)) ∧
      (Restored C ({ s with incomings := rest }.setWorker w (.process msg)) t' ∧
        t'.pending = t.pending) := by
  have hk := hr.workers w
  rw [hw] at hk
  have hsi := hr.incomings
  rw [hi] at hsi
  induction hti : t.incomings generalizing t with
  | nil => simp [hti] at hsi
  | cons m tail ih =>
    rw [hti] at hsi
    by_cases hd : Dispatched C m.event
    · rw [List.filter_cons_of_pos (by simpa [wellFormed] using hd)] at hsi
      obtain ⟨rfl, hrest⟩ := List.cons_eq_cons.mp hsi
      have hr' : Alike C { s with incomings := rest } { t with incomings := tail } :=
        { hr.toAlike with }
      exact matched_one hr.crash hmain (.takeIncoming hk hti) hr.crash rfl
        ⟨{ hr'.setWorker (by simp [Keeps, hd]) with
            pending := hr.pending, incomings := hrest, stop := hr.stop, main := hr.main }, rfl⟩
    · rw [List.filter_cons_of_neg (by simpa [wellFormed] using hd)] at hsi
      obtain ⟨bs, os, hrun, hv⟩ := drop_message (C := C) hr.crash hr.stop hmain hk hti hd
      have hr' : Restored C s { t with incomings := tail } :=
        { hr with incomings := by rw [hi, hsi] }
      obtain ⟨bs', os', t', hrun', hv', hr''⟩ := ih hr' hmain hk hsi rfl
      exact ⟨bs ++ bs', os ++ os', t', Machine.RunWithin.trans hrun hrun', by simp_all, hr''⟩

lemma restored_served (hr : Restored C s t) (hclear : Clear C t) (hmain : t.main = .service)
    {ev : Event} {rest : List Event} (hp : s.pending = ev :: rest) :
    ∃ bs os' t', (server n C spurious).Run t bs os' t' ∧ visible os' = visible ([] : List (Obs n)) ∧
      Restored C { s with pending := rest, main := .process (some ev) } t' := by
  have hsp := hr.pending
  rw [hp] at hsp
  cases htp : t.pending with
  | nil => simp [htp] at hsp
  | cons ev' tail =>
    have hev : wellFormed C ev' = true := hclear ev' (by simp [htp])
    rw [htp, List.filter_cons_of_pos hev] at hsp
    obtain ⟨rfl, hrest⟩ := List.cons_eq_cons.mp hsp
    exact matched_one hr.crash (by simp [hmain]) (.served hmain htp) hr.crash rfl
      { hr with pending := hrest, main := rfl }

lemma restored_received (hr : Restored C s t) {r : Reception}
    (hm : s.main = .process (some (.receive r))) (hd : wellFormed C (.receive r) = true) :
    ∃ bs os' t', (server n C spurious).Run t bs os' t' ∧
      visible os' = visible ([.event (.receive r)] : List (Obs n)) ∧
        Restored C { s with incomings := s.incomings ++ [⟨s.data r.peer, r⟩],
                            main := .drain .initial } t' := by
  have hmain : t.main = .process (some (.receive r)) := by rw [hr.main, hm]; rfl
  exact matched_one hr.crash (by simp [hmain]) (.received hmain) hr.crash rfl
    { hr with incomings := by simp [hr.incomings, hr.data, hd], main := rfl }

def Ready (C : Codec) (s t : State n) : Prop :=
  match s.main with
  | .test | .service => Clear C t
  | .process (some ev) => wellFormed C ev = true
  | _ => True

lemma Ready.congr (h : Ready C s t) (hm : s'.main = s.main) (hp : t'.pending = t.pending) :
    Ready C s' t' := by
  rw [Ready, Clear, hm, hp]
  exact h

lemma ready_of_inBody (h : s.main.inBody) : Ready C s t := by
  rw [Ready]
  cases hm : s.main with
  | process ev =>
    rw [hm] at h
    rcases ev with _ | _ | r | _
    case some.receive => cases h
    all_goals trivial
  | test | service =>
    rw [hm] at h
    cases h
  | _ => trivial

lemma restored_body {a : MainAction n} (h : StepCase C spurious s (.main a) s' os)
    (hr : Restored C s t) (hbody : s.main.inBody) (hmain : t.main ≠ .returned)
    (hs : s'.crash = none) :
    ∃ bs os' t', (server n C spurious).Run t bs os' t' ∧ visible os' = visible os ∧
      (Restored C s' t' ∧ Ready C s' t') := by
  obtain ⟨⟨hsame, hend⟩, t', ht, ha, hm, hsame'⟩ := main_matched h hr.toAlike
    (hr.main.trans (restored_of_inBody hbody)) hbody hs
  have hrun := run_of_case hr.crash hmain ht ha.crash
  rcases hend with ⟨htest, ho⟩ | hend
  · have hr' := hr.of_sameInput hsame hsame' ha (by rw [hm, htest]; rfl)
    obtain ⟨bs, os', t'', hrun', hv, hr'', hclear⟩ :=
      restored_flush spurious hr' htest (ha.outgoings ▸ ho)
    refine ⟨_, _, t'', Machine.RunWithin.trans hrun hrun', by simp_all, hr'', ?_⟩
    rw [Ready, htest]
    exact hclear
  · exact ⟨_, _, t', hrun, rfl, hr.of_sameInput hsame hsame' ha
      (by rw [hm, restored_of_inBody hend]), ready_of_inBody hend⟩

lemma restored_matched (h : StepCase C spurious s a s' os) (hr : Restored C s t)
    (hready : Ready C s t) (hmain : s.main ≠ .returned) (hs : ¬ Dead s') :
    ∃ bs os' t', (server n C spurious).Run t bs os' t' ∧ visible os' = visible os ∧
      (Restored C s' t' ∧ Ready C s' t') := by
  obtain ⟨hcrash', hmain'⟩ := not_or.mp hs
  rw [not_ne_iff] at hcrash'
  have htmain : t.main ≠ .returned := by
    rw [hr.main]
    cases hm : s.main <;> simp_all [Main.restored]
  cases a with
  | signal =>
    cases h
    exact matched_none rfl ⟨{ hr with }, hready.congr rfl rfl⟩
  | tick now =>
    cases h
    exact matched_one hr.crash htmain (.tick now) hr.crash rfl
      ⟨{ hr with clock := rfl }, hready.congr rfl rfl⟩
  | worker w a =>
    by_cases htake : a = .take
    · subst htake
      cases h with
      | takeIncoming hw hi =>
        obtain ⟨bs, os', t', hrun, hv, hr', hp⟩ := restored_take hr htmain hw hi
        exact ⟨bs, os', t', hrun, hv, hr', hready.congr rfl hp⟩
    · obtain ⟨hsame, bs, os', t', hrun, hv, ha, hsame'⟩ := worker_matched h hr.toAlike
        (fun _ => hr.stop) htmain htake hcrash'
      exact ⟨bs, os', t', hrun, hv, hr.of_sameInput hsame.toSameInput hsame'.toSameInput ha
        (by rw [hsame'.main, hsame.main, hr.main]), hready.congr hsame.main hsame'.pending⟩
  | main a =>
    by_cases hbody : s.main.inBody = true
    · exact restored_body h hr hbody htmain hcrash'
    · cases h with
      | mainContinue hm hzero =>
        have htest : t.main = .test := by rw [hr.main, hm]; rfl
        rw [Ready, hm] at hready
        exact matched_one hr.crash htmain (.mainContinue htest hr.stop) hr.crash rfl
          ⟨{ hr with main := rfl }, hready⟩
      | mainLeave hm hzero =>
        have htest : t.main = .test := by rw [hr.main, hm]; rfl
        exact matched_none rfl ⟨{ hr with main := htest }, trivial⟩
      | timeout hm =>
        have hservice : t.main = .service := by rw [hr.main, hm]; rfl
        exact matched_one hr.crash htmain (.timeout hservice) hr.crash rfl
          ⟨{ hr with main := rfl }, trivial⟩
      | @served ev rest hm hp =>
        have hservice : t.main = .service := by rw [hr.main, hm]; rfl
        have hev : wellFormed C ev = true := by
          have hmem : ev ∈ t.pending.filter (wellFormed C) := by
            rw [← hr.pending, hp]
            exact List.mem_cons_self
          exact (List.mem_filter.mp hmem).2
        rw [Ready, hm] at hready
        obtain ⟨bs, os', t', hrun, hv, hr'⟩ := restored_served hr hready hservice hp
        exact ⟨bs, os', t', hrun, hv, hr', hev⟩
      | received hm =>
        rw [Ready, hm] at hready
        obtain ⟨bs, os', t', hrun, hv, hr'⟩ := restored_received hr hm hready
        exact ⟨bs, os', t', hrun, hv, hr', trivial⟩
      | serviceFailed _ | nullPacket _ _ => cases hcrash'
      | returned _ _ => exact absurd rfl hmain'
      | idle hm | connected hm | disconnected hm | takeOutgoing hm _ | missOutgoing hm _
      | broadcast hm _ _ | sent _ hm _ _ _ | stale hm _ _ =>
        rw [hm] at hbody
        exact absurd rfl hbody

end Restoring

lemma visible_of_dead {s s' : State n} {a : Action n} {os : List (Obs n)}
    (h : StepCase C spurious s a s' os) (hs : ¬ Dead s) (hs' : Dead s') : visible os = [] := by
  cases h with
  | returned _ _ => simp
  | serviceFailed _ | nullPacket _ _ | fault _ _ => rfl
  | _ => exact absurd hs' (by simp_all [Dead, State.setWorker])

lemma simulate_run {R : State n → State n → Prop}
    (hR : ∀ s t a s' os, R s t → StepCase C spurious s a s' os → s.main ≠ .returned → ¬ Dead s' →
      ∃ bs os' t', (server n C spurious).Run t bs os' t' ∧ visible os' = visible os ∧ R s' t')
    {s s' t : State n} {acts : List (Action n)} {tr : List (Obs n)} (hst : R s t)
    (h : (server n C spurious).Run s acts tr s') :
    ∃ acts' tr' t', (server n C spurious).Run t acts' tr' t' ∧ visible tr' = visible tr := by
  have hstep : ∀ s t a s' os, (Dead s ∨ R s t) →
      (server n C spurious).step s a = some (s', os) → ∃ bs os' t',
        (server n C spurious).Run t bs os' t' ∧ visible os' = visible os ∧ (Dead s' ∨ R s' t') := by
    intro s t a s' os hd hs
    obtain ⟨⟨hcrash, hmain⟩, hc⟩ := step_cases hs
    have halive : ¬ Dead s := by simp [Dead, hcrash, hmain]
    by_cases hdead : Dead s'
    · exact ⟨[], [], t, .nil, (visible_of_dead hc halive hdead).symm, .inl hdead⟩
    · obtain ⟨bs, os', t', hrun, hv, hR'⟩ := hR s t a s' os (hd.resolve_left halive) hc hmain hdead
      exact ⟨bs, os', t', hrun, hv, .inr hR'⟩
  obtain ⟨acts', tr', t', hrun, hv, -⟩ := Machine.Run.simulate hstep h (.inr hst)
  exact ⟨acts', tr', t', hrun, hv⟩

lemma alike_initial (D : Datastore) (events events' : List Event) :
    Alike C (.initial n D events) (.initial n D events') :=
  ⟨rfl, rfl, rfl, rfl, rfl, fun _ => .inl rfl⟩

variable (C) in
theorem dropped_packets_invisible (n : ℕ) (spurious : Bool) (E : Traffic) (D : Datastore) :
    (∀ acts tr s, (server n C spurious).Run (.initial n D E.events) acts tr s →
      ∃ acts' tr' s', (server n C spurious).Run (.initial n D (E.filter (wellFormed C)).events)
        acts' tr' s' ∧ visible tr' = visible tr) ∧
    (∀ acts tr s,
      (server n C spurious).Run (.initial n D (E.filter (wellFormed C)).events) acts tr s →
        ∃ acts' tr' s', (server n C spurious).Run (.initial n D E.events) acts' tr' s' ∧
          visible tr' = visible tr) := by
  constructor
  · intro acts tr s h
    have hc : Cleaned C (.initial n D E.events) (.initial n D (E.filter (wellFormed C)).events) :=
      { alike_initial _ _ _ with pending := rfl, incomings := rfl, stop := rfl, main := rfl }
    exact simulate_run (fun _ _ _ _ _ hc h => cleaned_matched h hc) hc h
  · intro acts tr s h
    have hr : Restored C (.initial n D (E.filter (wellFormed C)).events) (.initial n D E.events) :=
      { alike_initial _ _ _ with pending := rfl, incomings := rfl, stop := rfl, main := rfl }
    obtain ⟨bs, os, t, hflush, hv, hr', hclear⟩ :=
      restored_flush spurious hr rfl (.inr fun _ => rfl)
    obtain ⟨acts', tr', s', hrun, hv'⟩ := simulate_run (C := C)
      (R := fun s t => Restored C s t ∧ Ready C s t)
      (fun _ _ _ _ _ hr h => restored_matched h hr.1 hr.2) ⟨hr', hclear⟩ h
    exact ⟨bs ++ acts', os ++ tr', s', Machine.RunWithin.trans hflush hrun, by simp_all⟩

end Keron.Server
