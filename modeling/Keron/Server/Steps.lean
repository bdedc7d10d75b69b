import Keron.Server.MessageSafety
import Keron.Server.Relay

/-! Everything a step of the server can do, one case for each. -/

namespace Keron.Server

open Keron.Schema.NetMessages ProducerQueues TraceMachines

variable {n : ℕ}

inductive StepCase (C : Codec) (spurious : Bool) (s : State n) :
    Action n → State n → List (Obs n) → Prop
  | signal : StepCase C spurious s .signal { s with stop := 1 } []
  | tick (now : ℤ) : StepCase C spurious s (.tick now) { s with clock := now } []
  | mainContinue : s.main = .test → s.stop = 0 →
      StepCase C spurious s (.main .go) { s with main := .service } []
  | mainLeave : s.main = .test → s.stop ≠ 0 →
      StepCase C spurious s (.main .go) { s with main := .join } []
  | timeout : s.main = .service →
      StepCase C spurious s (.main .timeout) { s with main := .process none } []
  | served {ev rest} : s.main = .service → s.pending = ev :: rest →
      StepCase C spurious s (.main .event)
        { s with pending := rest, main := .process (some ev) } []
  | serviceFailed : s.main = .service →
      StepCase C spurious s (.main .fail) { s with crash := some .servicing } []
  | idle : s.main = .process none →
      StepCase C spurious s (.main .go) { s with main := .drain .initial } []
  | received {r} : s.main = .process (some (.receive r)) →
      StepCase C spurious s (.main .go)
        { s with incomings := s.incomings ++ [⟨s.data r.peer, r⟩], main := .drain .initial }
        [.event (.receive r)]
  | connected {p data} : s.main = .process (some (.connect p data)) →
      StepCase C spurious s (.main .go)
        { s with datastore := connect data s.datastore, main := .drain .initial }
        [.event (.connect p data)]
  | disconnected {p} : s.main = .process (some (.disconnect p)) →
      StepCase C spurious s (.main .go)
        { s with data := Function.update s.data p (s.data p).succ, main := .drain .initial }
        [.event (.disconnect p)]
  | takeOutgoing {packet w out rest} : s.main = .drain packet → s.outgoings w = out :: rest →
      StepCase C spurious s (.main (.take w))
        { s with outgoings := Function.update s.outgoings w rest, main := .dispatch w out }
        (discard packet)
  | missOutgoing {packet} : s.main = .drain packet →
      (spurious = true ∨ ∀ w, s.outgoings w = []) →
      StepCase C spurious s (.main .miss) { s with main := .test } (discard packet)
  | broadcast {w packet payload} : s.main = .dispatch w packet → packet.peer = none →
      packet.payload = some payload →
      StepCase C spurious s (.main .go) { s with main := .drain packet.released }
        [.dispatched w packet nullptr .broadcast]
  | sent {w packet p} (accepted : Bool) : s.main = .dispatch w packet →
      packet.peer = some p → s.data p = packet.generation →
      (packet.payload = none → accepted = false) →
      StepCase C spurious s (.main (.send accepted)) { s with main := .drain packet.released }
        [.dispatched w packet (s.data p) (.ofSend accepted)]
  | stale {w packet p} : s.main = .dispatch w packet → packet.peer = some p →
      s.data p ≠ packet.generation →
      StepCase C spurious s (.main .go) { s with main := .drain packet }
        [.dispatched w packet (s.data p) .stale]
  | nullPacket {w packet a} : s.main = .dispatch w packet → packet.payload = none →
      StepCase C spurious s (.main a) { s with crash := some .nullPacket } []
  | returned : s.main = .join → (∀ w, s.workers w = .done) →
      StepCase C spurious s (.main .go)
        { s with incomings := [], outgoings := fun _ => [], main := .returned } s.leftovers
  | workerContinue {w} : s.workers w = .test → s.stop = 0 →
      StepCase C spurious s (.worker w .go) (s.setWorker w .poll) []
  | workerLeave {w} : s.workers w = .test → s.stop ≠ 0 →
      StepCase C spurious s (.worker w .go) (s.setWorker w .done) []
  | takeIncoming {w msg rest} : s.workers w = .poll → s.incomings = msg :: rest →
      StepCase C spurious s (.worker w .take)
        ({ s with incomings := rest }.setWorker w (.process msg)) []
  | missIncoming {w} : s.workers w = .poll → (spurious = true ∨ s.incomings = []) →
      StepCase C spurious s (.worker w .miss) (s.setWorker w .sleep) []
  | dropped {w msg created} : s.workers w = .process msg →
      (work C (s.world created) msg.event = .rejected ∨
        work C (s.world created) msg.event = .unhandled) →
      StepCase C spurious s (.worker w (.work created)) (s.setWorker w .sleep)
        [.examined w msg s.clock (s.data msg.event.peer) none, .freed w msg]
  | silent {w msg created} : s.workers w = .process msg →
      work C (s.world created) msg.event = .handled none →
      StepCase C spurious s (.worker w (.work created)) (s.setWorker w .poll)
        [.examined w msg s.clock (s.data msg.event.peer) none, .freed w msg]
  | replied {w msg created out} : s.workers w = .process msg →
      work C (s.world created) msg.event = .handled (some out) →
      StepCase C spurious s (.worker w (.work created)) (s.setWorker w (.enqueue msg out))
        [.examined w msg s.clock (s.data msg.event.peer) (some out)]
  | fault {w msg created f} : s.workers w = .process msg →
      work C (s.world created) msg.event = .fault f →
      StepCase C spurious s (.worker w (.work created)) { s with crash := some (.fault f) } []
  | enqueued {w msg out} : s.workers w = .enqueue msg out →
      StepCase C spurious s (.worker w .go)
        ({ s with outgoings := s.outgoings.enqueue w out }.setWorker w .poll) [.freed w msg]
  | wake {w} : s.workers w = .sleep →
      StepCase C spurious s (.worker w .go) (s.setWorker w .test) []

variable {C : Codec} {spurious : Bool} {s t : State n} {a : Action n} {os : List (Obs n)}

lemma stepMain_cases {a : MainAction n} (h : stepMain spurious s s.main a = some (t, os)) :
    StepCase C spurious s (.main a) t os := by
  cases hm : s.main with
  | test =>
    rw [hm] at h
    cases a <;> simp only [stepMain, Option.some.injEq, Prod.mk.injEq, reduceCtorEq] at h
    obtain ⟨rfl, rfl⟩ := h
    split_ifs with hs
    · exact .mainContinue hm hs
    · exact .mainLeave hm hs
  | service =>
    rw [hm] at h
    cases a with
    | timeout =>
      obtain ⟨rfl, rfl⟩ := Prod.mk.inj (Option.some.inj h)
      exact .timeout hm
    | event =>
      cases hp : s.pending with
      | nil => simp only [stepMain, hp, reduceCtorEq] at h
      | cons ev rest =>
        simp only [stepMain, hp, Option.some.injEq, Prod.mk.injEq] at h
        obtain ⟨rfl, rfl⟩ := h
        exact .served hm hp
    | fail =>
      obtain ⟨rfl, rfl⟩ := Prod.mk.inj (Option.some.inj h)
      exact .serviceFailed hm
    | _ => simp only [stepMain, reduceCtorEq] at h
  | process ev =>
    rw [hm] at h
    cases a <;> simp only [stepMain, Option.some.injEq, Prod.mk.injEq, reduceCtorEq] at h
    obtain ⟨rfl, rfl⟩ := h
    rcases ev with _ | p | r | p
    · exact .idle hm
    · exact .connected hm
    · exact .received hm
    · exact .disconnected hm
  | drain packet =>
    rw [hm] at h
    cases a with
    | take w =>
      cases ho : s.outgoings w with
      | nil => simp only [stepMain, ho, reduceCtorEq] at h
      | cons out rest =>
        simp only [stepMain, ho, Option.some.injEq, Prod.mk.injEq] at h
        obtain ⟨rfl, rfl⟩ := h
        exact .takeOutgoing hm ho
    | miss =>
      simp only [stepMain, Option.ite_none_right_eq_some, Option.some.injEq, Prod.mk.injEq] at h
      obtain ⟨hempty, rfl, rfl⟩ := h
      exact .missOutgoing hm hempty
    | _ => simp only [stepMain, reduceCtorEq] at h
  | dispatch w packet =>
    rw [hm] at h
    cases hp : packet.peer with
    | none =>
      cases a <;> simp only [stepMain, hp, reduceCtorEq] at h
      cases hl : packet.payload with
      | none =>
        simp only [hl, if_true, Option.some.injEq, Prod.mk.injEq] at h
        obtain ⟨rfl, rfl⟩ := h
        exact .nullPacket hm hl
      | some payload =>
        simp only [hl, reduceCtorEq, if_false, Option.some.injEq, Prod.mk.injEq] at h
        obtain ⟨rfl, rfl⟩ := h
        exact .broadcast hm hp hl
    | some p =>
      cases a with
      | send accepted =>
        simp only [stepMain, hp] at h
        split_ifs at h with hg hl
        · obtain ⟨rfl, rfl⟩ := Prod.mk.inj (Option.some.inj h)
          exact .nullPacket hm hl.1
        · obtain ⟨rfl, rfl⟩ := Prod.mk.inj (Option.some.inj h)
          refine .sent accepted hm hp (not_ne_iff.mp hg) fun hn => ?_
          simpa [hn] using hl
      | go =>
        simp only [stepMain, hp] at h
        split_ifs at h with hg
        obtain ⟨rfl, rfl⟩ := Prod.mk.inj (Option.some.inj h)
        exact .stale hm hp hg
      | _ => simp only [stepMain, hp, reduceCtorEq] at h
  | join =>
    rw [hm] at h
    cases a <;> simp only [stepMain, reduceCtorEq] at h
    simp only [Option.ite_none_right_eq_some, Option.some.injEq, Prod.mk.injEq] at h
    obtain ⟨hdone, rfl, rfl⟩ := h
    exact .returned hm hdone
  | returned =>
    rw [hm] at h
    cases a <;> simp only [stepMain, reduceCtorEq] at h

lemma stepWorker_cases {w : Fin n} {a : WorkerAction}
    (h : stepWorker C spurious s w (s.workers w) a = some (t, os)) :
    StepCase C spurious s (.worker w a) t os := by
  cases hw : s.workers w with
  | test =>
    rw [hw] at h
    cases a <;> simp only [stepWorker, Option.some.injEq, Prod.mk.injEq, reduceCtorEq] at h
    obtain ⟨rfl, rfl⟩ := h
    split_ifs with hs
    · exact .workerContinue hw hs
    · exact .workerLeave hw hs
  | poll =>
    rw [hw] at h
    cases a with
    | take =>
      cases hi : s.incomings with
      | nil => simp only [stepWorker, hi, reduceCtorEq] at h
      | cons msg rest =>
        simp only [stepWorker, hi, Option.some.injEq, Prod.mk.injEq] at h
        obtain ⟨rfl, rfl⟩ := h
        exact .takeIncoming hw hi
    | miss =>
      simp only [stepWorker, Option.ite_none_right_eq_some, Option.some.injEq, Prod.mk.injEq] at h
      obtain ⟨hempty, rfl, rfl⟩ := h
      exact .missIncoming hw hempty
    | _ => simp only [stepWorker, reduceCtorEq] at h
  | process msg =>
    rw [hw] at h
    cases a with
    | work created =>
      cases hv : work C (s.world created) msg.event with
      | rejected =>
        simp only [stepWorker, hv, Option.some.injEq, Prod.mk.injEq] at h
        obtain ⟨rfl, rfl⟩ := h
        exact .dropped hw (.inl hv)
      | unhandled =>
        simp only [stepWorker, hv, Option.some.injEq, Prod.mk.injEq] at h
        obtain ⟨rfl, rfl⟩ := h
        exact .dropped hw (.inr hv)
      | handled out =>
        cases out with
        | none =>
          simp only [stepWorker, hv, Option.some.injEq, Prod.mk.injEq] at h
          obtain ⟨rfl, rfl⟩ := h
          exact .silent hw hv
        | some out =>
          simp only [stepWorker, hv, Option.some.injEq, Prod.mk.injEq] at h
          obtain ⟨rfl, rfl⟩ := h
          exact .replied hw hv
      | fault f =>
        simp only [stepWorker, hv, Option.some.injEq, Prod.mk.injEq] at h
        obtain ⟨rfl, rfl⟩ := h
        exact .fault hw hv
    | _ => simp only [stepWorker, reduceCtorEq] at h
  | enqueue msg out =>
    rw [hw] at h
    cases a <;> simp only [stepWorker, Option.some.injEq, Prod.mk.injEq, reduceCtorEq] at h
    obtain ⟨rfl, rfl⟩ := h
    exact .enqueued hw
  | sleep =>
    rw [hw] at h
    cases a <;> simp only [stepWorker, Option.some.injEq, Prod.mk.injEq, reduceCtorEq] at h
    obtain ⟨rfl, rfl⟩ := h
    exact .wake hw
  | done =>
    rw [hw] at h
    cases a <;> simp only [stepWorker, reduceCtorEq] at h

lemma step_cases (h : (server n C spurious).step s a = some (t, os)) :
    (s.crash = none ∧ s.main ≠ .returned) ∧ StepCase C spurious s a t os := by
  simp only [server, step] at h
  split_ifs at h with halive
  rw [not_or, not_ne_iff] at halive
  refine ⟨halive, ?_⟩
  cases a with
  | signal =>
    obtain ⟨rfl, rfl⟩ := Prod.mk.inj (Option.some.inj h)
    exact .signal
  | tick now =>
    obtain ⟨rfl, rfl⟩ := Prod.mk.inj (Option.some.inj h)
    exact .tick now
  | main a => exact stepMain_cases h
  | worker w a => exact stepWorker_cases h

lemma invariant_of_cases {guard : State n → Action n → Prop} {P : List (Obs n) → State n → Prop}
    {s₀ : State n} {acts : List (Action n)} {tr : List (Obs n)}
    (h : (server n C spurious).RunWithin guard s₀ acts tr s) (h₀ : P [] s₀)
    (hstep : ∀ acts tr s a t os, (server n C spurious).RunWithin guard s₀ acts tr s →
      s.main ≠ .returned → guard s a → StepCase C spurious s a t os → P tr s → P (tr ++ os) t) :
    P tr s := by
  apply h.invariant h₀
  intro acts tr s a t os hr hi hg hs
  obtain ⟨⟨_, halive⟩, hc⟩ := step_cases hs
  exact hstep acts tr s a t os hr halive hg hc hi

lemma step_of_case (hcrash : s.crash = none) (hmain : s.main ≠ .returned)
    (h : StepCase C spurious s a t os) (ht : t.crash = none) :
    (server n C spurious).step s a = some (t, os) := by
  have halive : ¬ (s.crash ≠ none ∨ s.main = .returned) := by simp [hcrash, hmain]
  simp only [server, step, if_neg halive]
  cases h with
  | serviceFailed hm | nullPacket hm _ | fault hw _ => cases ht
  | @sent w packet p accepted hm hp hd hl =>
    have hnull : ¬ (packet.payload = none ∧ accepted = true) := fun h => by simp [hl h.1] at h
    simp [stepMain, hm, hp, hd, hnull]
  | dropped hw hwork => rcases hwork with hwork | hwork <;> simp [stepWorker, hw, hwork]
  | _ => simp_all [stepMain, stepWorker, State.processEvent]

lemma run_of_case (hcrash : s.crash = none) (hmain : s.main ≠ .returned)
    (h : StepCase C spurious s a t os) (ht : t.crash = none) :
    (server n C spurious).Run s [a] os t :=
  Machine.Run.step (step_of_case hcrash hmain h ht)

lemma main_of_step {b : MainAction n} (h : (server n C spurious).step s (.main b) = some (t, os)) :
    ((b = .timeout ∨ b = .event ∨ b = .fail) → s.main = .service) ∧
      ∀ w, b = .take w → ∃ packet, s.main = .drain packet := by
  obtain ⟨⟨hcrash, hmain⟩, -⟩ := step_cases h
  have halive : ¬ (s.crash ≠ none ∨ s.main = .returned) := by simp [hcrash, hmain]
  simp only [server, step, if_neg halive] at h
  cases hm : s.main with
  | service =>
    refine ⟨fun _ => rfl, ?_⟩
    rintro w rfl
    simp [hm, stepMain] at h
  | drain packet =>
    refine ⟨?_, fun w _ => ⟨packet, rfl⟩⟩
    rintro (rfl | rfl | rfl) <;> simp [hm, stepMain] at h
  | dispatch w packet =>
    cases hp : packet.peer <;> cases b <;> simp [hm, stepMain, hp] at h ⊢
  | _ => cases b <;> simp [hm, stepMain] at h ⊢

section Progress

variable (C) (spurious)

lemma exists_step_main (hcrash : s.crash = none) (hmain : s.main ≠ .returned)
    (hjoin : s.main = .join → ∀ w, s.workers w = .done) :
    ∃ a t os, (server n C spurious).step s (.main a) = some (t, os) := by
  have halive : ¬ (s.crash ≠ none ∨ s.main = .returned) := by simp [hcrash, hmain]
  simp only [server, step, if_neg halive]
  cases hm : s.main with
  | test => exact ⟨.go, _, _, rfl⟩
  | service => exact ⟨.timeout, _, _, rfl⟩
  | process ev => exact ⟨.go, _, _, rfl⟩
  | drain packet =>
    by_cases hempty : ∀ w, s.outgoings w = []
    · exact ⟨.miss, _, _, if_pos (.inr hempty)⟩
    · obtain ⟨w, hw⟩ := not_forall.mp hempty
      obtain ⟨out, rest, ho⟩ := List.exists_cons_of_ne_nil hw
      exact ⟨.take w, _, _, by simp only [stepMain, ho]; rfl⟩
  | dispatch w packet =>
    cases hp : packet.peer with
    | none =>
      cases hl : packet.payload with
      | none => exact ⟨.go, by simp [stepMain, hp, hl]⟩
      | some payload => exact ⟨.go, by simp [stepMain, hp, hl]⟩
    | some p =>
      by_cases hd : s.data p = packet.generation
      · exact ⟨.send false, by simp [stepMain, hp, hd]⟩
      · exact ⟨.go, by simp [stepMain, hp, hd]⟩
  | join => exact ⟨.go, _, _, if_pos (hjoin hm)⟩
  | returned => exact absurd hm hmain

lemma exists_step_worker (hcrash : s.crash = none) (hmain : s.main ≠ .returned) {w : Fin n}
    (hw : s.workers w ≠ .done) :
    ∃ a t os, (server n C spurious).step s (.worker w a) = some (t, os) := by
  have halive : ¬ (s.crash ≠ none ∨ s.main = .returned) := by simp [hcrash, hmain]
  simp only [server, step, if_neg halive]
  cases hpc : s.workers w with
  | test => exact ⟨.go, _, _, rfl⟩
  | poll =>
    cases hi : s.incomings with
    | nil => exact ⟨.miss, _, _, if_pos (.inr hi)⟩
    | cons msg rest => exact ⟨.take, _, _, by simp only [stepWorker, hi]; rfl⟩
  | process msg =>
    refine ⟨.work true, ?_⟩
    simp only [stepWorker]
    rcases work C (s.world true) msg.event with _ | _ | (_ | out) | f <;> exact ⟨_, _, rfl⟩
  | enqueue msg out => exact ⟨.go, _, _, rfl⟩
  | sleep => exact ⟨.go, _, _, rfl⟩
  | done => exact absurd hpc hw

end Progress

end Keron.Server
