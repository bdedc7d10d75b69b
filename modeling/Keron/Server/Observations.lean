import Keron.Server.Outgoings
import Keron.Server.PacketLedger

/-! What the observations of a run tell of the handlers and of the main loop. -/

namespace Keron.Server

open Keron.Schema.NetMessages ProducerQueues TraceMachines

variable {n : ℕ} {C : Codec} {spurious : Bool}

structure Examination (n : ℕ) where
  w : Fin n
  msg : Incoming
  now : ℤ
  data : Pointer
  out : Option Outgoing

structure Dispatch (n : ℕ) where
  w : Fin n
  out : Outgoing
  data : Pointer
  fate : Fate

def Obs.examination? : Obs n → Option (Examination n)
  | .examined w msg now data out => some ⟨w, msg, now, data, out⟩
  | _ => none

def Obs.dispatch? : Obs n → Option (Dispatch n)
  | .dispatched w out data fate => some ⟨w, out, data, fate⟩
  | _ => none

@[simp] def Obs.created? : Obs n → Option ENetPacket
  | .examined _ _ _ _ (some out) => out.payload
  | _ => none

abbrev examinations (tr : List (Obs n)) : List (Examination n) := project Obs.examination? tr
abbrev dispatches (tr : List (Obs n)) : List (Dispatch n) := project Obs.dispatch? tr
@[simp] abbrev created (tr : List (Obs n)) : List ENetPacket := project Obs.created? tr

variable (C) in
def Sound : Obs n → Prop
  | .examined _ msg now data out => ∃ world : World, world.now = now ∧
      world.data msg.event.peer = data ∧
        match out with
        | none => work C world msg.event = .rejected ∨ work C world msg.event = .unhandled ∨
            work C world msg.event = .handled none
        | some out => work C world msg.event = .handled (some out)
  | .dispatched _ out data fate =>
    match out.peer with
    | none => fate = .broadcast ∧ out.payload ≠ none
    | some _ => fate ≠ .broadcast ∧ (fate = .stale ↔ data ≠ out.generation)
  | _ => True

lemma sound_step {s t : State n} {a : Action n} {os : List (Obs n)}
    (h : StepCase C spurious s a t os) : ∀ o ∈ os, Sound C o := by
  cases h with
  | @dropped w msg created hw hwork =>
    have hexamined : Sound C (.examined w msg s.clock (s.data msg.event.peer) none) :=
      ⟨s.world created, rfl, rfl, hwork.imp_right .inl⟩
    simpa [Sound] using hexamined
  | @silent w msg created hw hwork =>
    have hexamined : Sound C (.examined w msg s.clock (s.data msg.event.peer) none) :=
      ⟨s.world created, rfl, rfl, .inr (.inr hwork)⟩
    simpa [Sound] using hexamined
  | @replied w msg created out hw hwork =>
    have hexamined : Sound C (.examined w msg s.clock (s.data msg.event.peer) (some out)) :=
      ⟨s.world created, rfl, rfl, hwork⟩
    simpa using hexamined
  | broadcast hm hp hl => simp [Sound, hp, hl]
  | sent accepted hm hp hd _ => cases accepted <;> simp [Sound, hp, hd, Fate.ofSend]
  | stale hm hp hd => simp [Sound, hp, hd]
  | takeOutgoing _ _ | missOutgoing _ _ => exact forall_mem_discard (fun _ => trivial) _
  | returned _ _ => exact forall_mem_leftovers (fun _ => trivial) (fun _ _ => trivial) s
  | _ => simp [Sound]

section Logs

variable (tr : List (Obs n))

lemma map_examinations :
    (examinations tr).map (fun x => x.msg.event) = examined tr := by
  rw [map_project]
  congr 1
  funext o
  cases o <;> rfl

lemma filterMap_examinations :
    (examinations tr).filterMap Examination.out = (produced tr).map (·.2) := by
  rw [filterMap_project, map_project]
  congr 1
  funext o
  rcases o with _ | ⟨_, _, _, _, _ | _⟩ | _ | _ | _ | _ | _ <;> rfl

lemma map_dispatches : (dispatches tr).map Dispatch.out = (dispatched tr).map (·.2) := by
  rw [map_project, map_project]
  congr 1
  funext o
  cases o <;> rfl

lemma mem_examinations {x : Examination n} :
    x ∈ examinations tr ↔ .examined x.w x.msg x.now x.data x.out ∈ tr := by
  rw [mem_project]
  constructor
  · rintro ⟨o, ho, hx⟩
    cases o <;> cases hx
    exact ho
  · exact fun h => ⟨_, h, rfl⟩

lemma mem_dispatches {d : Dispatch n} :
    d ∈ dispatches tr ↔ .dispatched d.w d.out d.data d.fate ∈ tr := by
  rw [mem_project]
  constructor
  · rintro ⟨o, ho, hx⟩
    cases o <;> cases hx
    exact ho
  · exact fun h => ⟨_, h, rfl⟩

lemma count_toList (p : ENetPacket) (x : Option ENetPacket) :
    x.toList.count p = if x == some p then 1 else 0 := by
  cases x <;> simp [List.count_singleton]

lemma count_created (p : ENetPacket) :
    (created tr).count p = (produced tr).countP fun x => x.2.payload == some p := by
  induction tr with
  | nil => rfl
  | cons o tr ih =>
    rcases o with _ | ⟨_, _, _, _, _ | out⟩ | _ | _ | _ | _ | _ <;>
      simp [count_toList, List.countP_cons] at ih ⊢ <;> omega

variable {tr}

lemma exists_examination {x : Fin n × Outgoing} (hx : x ∈ produced tr) :
    ∃ e ∈ examinations tr, e.w = x.1 ∧ e.out = some x.2 := by
  obtain ⟨o, ho, hp⟩ := (mem_project _).mp hx
  rcases o with _ | ⟨w, msg, now, data, _ | out⟩ | _ | _ | _ | _ | _ <;> cases hp
  exact ⟨⟨w, msg, now, data, some out⟩, (mem_examinations tr).mpr ho, rfl, rfl⟩

lemma created_serials (hs : ∀ o ∈ tr, Sound C o) :
    ((created tr).map (·.serial)).Sublist ((examined tr).map (·.packet.serial)) := by
  induction tr with
  | nil => exact .refl _
  | cons o tr ih =>
    obtain ⟨ho, htail⟩ := List.forall_mem_cons.mp hs
    have ih' := ih htail
    rcases o with _ | ⟨w, msg, now, data, _ | out⟩ | _ | _ | _ | _ | _
    case examined.some =>
      obtain ⟨world, _, _, hwork⟩ := ho
      cases hp : out.payload with
      | none => simpa [hp] using ih'.cons _
      | some payload => simpa [hp, serial_of_work hwork hp] using ih'
    case examined.none => simpa using ih'.cons _
    all_goals simpa using ih'

end Logs

variable {E : Traffic} {D : Datastore} {acts : List (Action n)} {tr : List (Obs n)} {s : State n}

lemma sound_run (h : (server n C spurious).Run (.initial n D E.events) acts tr s) :
    ∀ o ∈ tr, Sound C o := by
  apply invariant_of_cases h
  · simp
  · intro _ tr s a t os _ _ _ hc hi o ho
    rcases List.mem_append.mp ho with ho | ho
    · exact hi o ho
    · exact sound_step hc o ho

lemma examination_unique (h : (server n C spurious).Run (.initial n D E.events) acts tr s)
    {e e' : Examination n} (he : e ∈ examinations tr) (he' : e' ∈ examinations tr)
    (hserial : e.msg.event.packet.serial = e'.msg.event.packet.serial) : e = e' := by
  have hn := examined_nodup h
  rw [← map_examinations, List.map_map] at hn
  exact List.inj_on_of_nodup_map hn he he' hserial

lemma created_nodup (h : (server n C spurious).Run (.initial n D E.events) acts tr s) :
    (created tr).Nodup :=
  ((examined_nodup h).sublist (created_serials (sound_run h))).of_map

lemma dispatched_origin (h : (server n C spurious).Run (.initial n D E.events) acts tr s)
    {w : Fin n} {out : Outgoing} {p : ENetPacket} (hd : (w, out) ∈ dispatched tr)
    (hp : out.payload = some p) :
    ∃ e ∈ examinations tr, (e.w = w ∧ e.out = some out) ∧
      ((C.IsVerified NetID.Chat p.data ∧ out.peer = none ∧
          out.channelID = e.msg.event.channelID ∧ e.msg.event.packet = p) ∨
        (out.peer = some e.msg.event.peer ∧
          ∃ t t', p.data = C.finishNetMessageBuffer (createClockSync t t'))) := by
  obtain ⟨e, he, hew, hout⟩ := exists_examination (dispatched_produced h hd)
  refine ⟨e, he, ⟨hew, hout⟩, ?_⟩
  have hsound := sound_run h _ ((mem_examinations tr).mp he)
  rw [hout] at hsound
  obtain ⟨world, _, _, hwork⟩ := hsound
  have hcreated := (created_iff_of_work hwork).mpr (by simp [hp])
  rcases outgoing_of_work hwork with ⟨hv, rfl⟩ | ⟨t, _, _, rfl⟩
  · have hpacket : e.msg.event.packet = p := by
      simpa [chatRelay, enetPacketCreate, hcreated] using hp
    exact .inl ⟨hpacket ▸ hv, rfl, rfl, hpacket⟩
  · refine .inr ⟨rfl, t.clientTransmission, Binary64.ofInt (seconds world.now), ?_⟩
    simp only [clocksyncReply, enetPacketCreate, hcreated, if_true, Option.some.injEq] at hp
    rw [← hp]

end Keron.Server
