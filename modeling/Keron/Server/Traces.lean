import Keron.Server.Steps

/-! What the trace of a run records, and what it says about the state reached. -/

namespace Keron.Server

open Keron.Schema.NetMessages ProducerQueues TraceMachines

variable {n : ℕ}

inductive Call
  | broadcast (channelID : Byte) (packet : Option ENetPacket)
  | send (peer : Slot) (channelID : Byte) (packet : Option ENetPacket)
  deriving DecidableEq, Repr

def Outgoing.call (out : Outgoing) : Call :=
  match out.peer with
  | none => .broadcast out.channelID out.payload
  | some p => .send p out.channelID out.payload

namespace Obs

@[simp] def event? : Obs n → Option Event
  | .event ev => some ev
  | _ => none

@[simp] def received? : Obs n → Option Reception
  | .event (.receive r) => some r
  | _ => none

@[simp] def examined? : Obs n → Option Reception
  | .examined _ msg _ _ _ => some msg.event
  | _ => none

@[simp] def freed? : Obs n → Option Reception
  | .freed _ msg => some msg.event
  | _ => none

@[simp] def orphaned? : Obs n → Option Reception
  | .orphaned msg => some msg.event
  | _ => none

@[simp] def produced? : Obs n → Option (Fin n × Outgoing)
  | .examined w _ _ _ (some out) => some (w, out)
  | _ => none

@[simp] def dispatched? : Obs n → Option (Fin n × Outgoing)
  | .dispatched w out _ _ => some (w, out)
  | _ => none

@[simp] def call? : Obs n → Option Call
  | .dispatched _ out _ fate => if fate = .stale then none else some out.call
  | _ => none

@[simp] def abandoned? : Obs n → Option (Fin n × Outgoing)
  | .abandoned w out => some (w, out)
  | _ => none

end Obs

section Projections

variable {β : Type} (f : Obs n → Option β)

def project (tr : List (Obs n)) : List β := tr.filterMap f

@[simp] lemma project_nil : project f [] = [] := rfl

@[simp] lemma project_cons (o : Obs n) (tr : List (Obs n)) :
    project f (o :: tr) = (f o).toList ++ project f tr := by
  cases h : f o <;> simp [project, h]

@[simp] lemma project_append (tr os : List (Obs n)) :
    project f (tr ++ os) = project f tr ++ project f os :=
  List.filterMap_append

lemma filterMap_project {γ : Type} (g : β → Option γ) (tr : List (Obs n)) :
    (project f tr).filterMap g = project (fun o => (f o).bind g) tr :=
  List.filterMap_filterMap

lemma map_project {γ : Type} (g : β → γ) (tr : List (Obs n)) :
    (project f tr).map g = project (fun o => (f o).map g) tr :=
  List.map_filterMap

@[simp] lemma project_discard (packet : Outgoing) :
    project f (discard packet) = packet.payload.toList.filterMap fun p => f (.discarded p) :=
  List.filterMap_map ..

@[simp] lemma project_leftovers (s : State n) : project f s.leftovers =
    (s.incomings.filterMap fun msg => f (.orphaned msg)) ++
      (List.finRange n).flatMap fun w => (s.outgoings w).filterMap fun out =>
        f (.abandoned w out) := by
  simp only [project, State.leftovers, List.filterMap_append, List.filterMap_map,
    List.filterMap_flatMap]
  rfl

lemma mem_project {b : β} {tr : List (Obs n)} : b ∈ project f tr ↔ ∃ o ∈ tr, f o = some b :=
  List.mem_filterMap

@[simp] lemma flatMap_nil {γ : Type} (l : List γ) : (l.flatMap fun _ => ([] : List β)) = [] := by
  simp

end Projections

section Destructors

variable {P : Obs n → Prop}

lemma forall_mem_discard (h : ∀ p, P (.discarded p)) (packet : Outgoing) :
    ∀ o ∈ discard packet, P o := by
  intro o ho
  obtain ⟨p, _, rfl⟩ := List.mem_map.mp ho
  exact h p

lemma forall_mem_leftovers (ho : ∀ msg, P (.orphaned msg)) (ha : ∀ w out, P (.abandoned w out))
    (s : State n) : ∀ o ∈ s.leftovers, P o := by
  intro o hmem
  rcases List.mem_append.mp hmem with hmem | hmem
  · obtain ⟨msg, _, rfl⟩ := List.mem_map.mp hmem
    exact ho msg
  · obtain ⟨w, _, hmem⟩ := List.mem_flatMap.mp hmem
    obtain ⟨out, _, rfl⟩ := List.mem_map.mp hmem
    exact ha w out

variable {Q : List (Obs n) → Obs n → Prop} {tr : List (Obs n)}

lemma justified_discard (h : Justified Q tr) (hd : ∀ before p, Q before (.discarded p))
    (packet : Outgoing) : Justified Q (tr ++ discard packet) :=
  h.append fun o ho before => forall_mem_discard (hd before) packet o ho

lemma justified_leftovers (h : Justified Q tr) (ho : ∀ before msg, Q before (.orphaned msg))
    (ha : ∀ before w out, Q before (.abandoned w out)) (s : State n) :
    Justified Q (tr ++ s.leftovers) :=
  h.append fun o hmem before => forall_mem_leftovers (ho before) (ha before) s o hmem

end Destructors

@[simp] abbrev events (tr : List (Obs n)) : List Event := project Obs.event? tr
@[simp] abbrev received (tr : List (Obs n)) : List Reception := project Obs.received? tr
@[simp] abbrev examined (tr : List (Obs n)) : List Reception := project Obs.examined? tr
@[simp] abbrev freed (tr : List (Obs n)) : List Reception := project Obs.freed? tr
@[simp] abbrev orphaned (tr : List (Obs n)) : List Reception := project Obs.orphaned? tr
@[simp] abbrev produced (tr : List (Obs n)) : List (Fin n × Outgoing) := project Obs.produced? tr
@[simp] abbrev dispatched (tr : List (Obs n)) : List (Fin n × Outgoing) :=
  project Obs.dispatched? tr
@[simp] abbrev calls (tr : List (Obs n)) : List Call := project Obs.call? tr
@[simp] abbrev abandoned (tr : List (Obs n)) : List (Fin n × Outgoing) := project Obs.abandoned? tr

@[simp] def Main.current : Main n → List Event
  | .process (some ev) => [ev]
  | _ => []

@[simp] def Main.dispatching : Main n → List (Fin n × Outgoing)
  | .dispatch w packet => [(w, packet)]
  | _ => []

variable {C : Codec} {spurious : Bool} {tr : List (Obs n)} {s t : State n} {a : Action n}
  {os : List (Obs n)}

lemma received_eq_receptions (tr : List (Obs n)) : received tr = receptions (events tr) := by
  rw [received, receptions, events, filterMap_project]
  congr 1
  funext o
  cases o with
  | event ev => cases ev <;> rfl
  | _ => rfl

lemma events_step (h : StepCase C spurious s a t os) :
    events os ++ t.main.current ++ t.pending = s.main.current ++ s.pending := by
  cases h with
  | served hm hp => simp [hm, hp]
  | mainContinue hm | mainLeave hm | timeout hm | idle hm | received hm | connected hm
  | disconnected hm | takeOutgoing hm | missOutgoing hm | broadcast hm | sent _ hm | stale hm
  | returned hm => simp [hm]
  | _ => simp [State.setWorker]

lemma events_run {D : Datastore} {events₀ : List Event} {acts : List (Action n)}
    (h : (server n C spurious).Run (.initial n D events₀) acts tr s) :
    events₀ = events tr ++ s.main.current ++ s.pending := by
  apply invariant_of_cases h
  · rfl
  · intro _ tr s a t os _ _ _ hc hi
    have he := events_step hc
    simp only [hi, project_append, List.append_assoc] at he ⊢
    rw [he]

def connections (events : List Event) : List (BitVec 32) :=
  events.filterMap fun
    | .connect _ data => some data
    | _ => none

lemma datastore_step (h : StepCase C spurious s a t os) :
    t.datastore = (connections (events os)).foldl (fun d data => connect data d) s.datastore := by
  cases h <;> simp [connections, State.setWorker]

lemma datastore_run {D : Datastore} {events₀ : List Event} {acts : List (Action n)}
    (h : (server n C spurious).Run (.initial n D events₀) acts tr s) :
    s.datastore = (connections (events tr)).foldl (fun d data => connect data d) D := by
  apply invariant_of_cases h
  · rfl
  · intro _ tr s a t os _ _ _ hc hi
    rw [datastore_step hc, hi]
    simp [connections, List.filterMap_append, List.foldl_append]

lemma received_nodup {E : Traffic} {D : Datastore} {acts : List (Action n)}
    (h : (server n C spurious).Run (.initial n D E.events) acts tr s) :
    ((received tr).map (·.packet.serial)).Nodup := by
  have he := events_run h
  have hn := E.serials_nodup
  rw [he, receptions, List.append_assoc, List.filterMap_append, List.map_append] at hn
  rw [received_eq_receptions]
  exact hn.of_append_left

def AllDone (s : State n) : Prop := ∀ w, s.workers w = .done

instance : DecidablePred (AllDone (n := n)) := fun _ => inferInstanceAs (Decidable (∀ _, _ = _))

lemma returned_step (h : StepCase C spurious s a t os) (halive : s.main ≠ .returned)
    (ht : t.main = .returned) : AllDone t ∧ t.incomings = [] ∧ ∀ w, t.outgoings w = [] := by
  cases h with
  | returned _ hd => exact ⟨hd, rfl, fun _ => rfl⟩
  | signal | tick | serviceFailed _ | nullPacket _ _ | fault _ _ => exact absurd ht halive
  | takeIncoming _ _ | workerContinue _ _ | workerLeave _ _ | missIncoming _ _ | dropped _ _
  | silent _ _ | replied _ _ | enqueued _ | wake _ => exact absurd ht halive
  | _ => cases ht

lemma returned_run {D : Datastore} {events₀ : List Event} {acts : List (Action n)}
    (h : (server n C spurious).Run (.initial n D events₀) acts tr s) :
    s.main = .returned → AllDone s ∧ s.incomings = [] ∧ ∀ w, s.outgoings w = [] := by
  apply invariant_of_cases (P := fun _ s => s.main = .returned →
    AllDone s ∧ s.incomings = [] ∧ ∀ w, s.outgoings w = []) h
  · intro hs
    cases hs
  · intro _ _ s a t os _ halive _ hc _
    exact returned_step hc halive

end Keron.Server
