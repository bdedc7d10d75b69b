import Keron.Library.ProducerQueues
import Keron.Library.TraceMachines

/-! A queue whose calls take effect in one step between the call and its answer. The items of each
producer are taken in the order in which it put them, and nothing relates two producers. -/

namespace AtomicQueues

open ProducerQueues TraceMachines

inductive Call (α : Type*)
  | idle
  | pending (x : α)
  | answered (x : α) (success : Bool)

inductive Poll (ι α : Type*)
  | idle
  | polling (due : ι → Bool)
  | answered (item : Option (ι × α))

structure State (ι κ α : Type*) where
  items : ProducerQueue ι α
  calls : ι → Call α
  polls : κ → Poll ι α

inductive Action (ι κ α : Type*)
  | call (p : ι) (x : α)
  | put (p : ι)
  | refuse (p : ι)
  | answer (p : ι)
  | poll (c : κ)
  | look (c : κ) (p : ι)
  | take (c : κ) (p : ι)
  | miss (c : κ)
  | answerPoll (c : κ)

inductive Obs (ι κ α : Type*)
  | called (p : ι) (x : α)
  | enqueued (p : ι) (x : α) (success : Bool)
  | polled (c : κ)
  | dequeued (c : κ) (p : ι) (x : α)
  | missed (c : κ)
  deriving DecidableEq

variable {ι κ α : Type*} [DecidableEq ι] [DecidableEq κ]

def State.initial : State ι κ α := ⟨fun _ => [], fun _ => .idle, fun _ => .idle⟩

namespace State

def setCall (s : State ι κ α) (p : ι) (call : Call α) : State ι κ α :=
  { s with calls := Function.update s.calls p call }

def setPoll (s : State ι κ α) (c : κ) (poll : Poll ι α) : State ι κ α :=
  { s with polls := Function.update s.polls c poll }

end State

/-- A call may find nothing whenever it is `spurious`, and otherwise once it has found every
producer empty that had items when it was made. -/
def queue [Fintype ι] (spurious : Bool) :
    Machine (State ι κ α) (Action ι κ α) (Obs ι κ α) where
  step s
    | .call p x =>
      match s.calls p with
      | .idle => some (s.setCall p (.pending x), [.called p x])
      | _ => none
    | .put p =>
      match s.calls p with
      | .pending x =>
        some ({ s with items := s.items.enqueue p x }.setCall p (.answered x true), [])
      | _ => none
    | .refuse p =>
      match s.calls p with
      | .pending x => some (s.setCall p (.answered x false), [])
      | _ => none
    | .answer p =>
      match s.calls p with
      | .answered x success => some (s.setCall p .idle, [.enqueued p x success])
      | _ => none
    | .poll c =>
      match s.polls c with
      | .idle => some (s.setPoll c (.polling fun p => !(s.items p).isEmpty), [.polled c])
      | _ => none
    | .look c p =>
      match s.polls c, s.items p with
      | .polling due, [] => some (s.setPoll c (.polling (Function.update due p false)), [])
      | _, _ => none
    | .take c p =>
      match s.polls c, s.items p with
      | .polling _, x :: rest =>
        some ({ s with items := Function.update s.items p rest }.setPoll c
          (.answered (some (p, x))), [])
      | _, _ => none
    | .miss c =>
      match s.polls c with
      | .polling due =>
        if spurious ∨ ∀ p, due p = false then some (s.setPoll c (.answered none), []) else none
      | _ => none
    | .answerPoll c =>
      match s.polls c with
      | .answered (some (p, x)) => some (s.setPoll c .idle, [.dequeued c p x])
      | .answered none => some (s.setPoll c .idle, [.missed c])
      | _ => none

section moves

variable [Fintype ι] {spurious : Bool} {s : State ι κ α} {p : ι} {c : κ}

lemma run_put {x : α} (h : s.calls p = .pending x) : (queue spurious).Run s [.put p] []
    ({ s with items := s.items.enqueue p x }.setCall p (.answered x true)) :=
  Machine.Run.step (by simp only [queue, h])

lemma run_refuse {x : α} (h : s.calls p = .pending x) :
    (queue spurious).Run s [.refuse p] [] (s.setCall p (.answered x false)) :=
  Machine.Run.step (by simp only [queue, h])

lemma run_look {due : ι → Bool} (h : s.polls c = .polling due) (hp : s.items p = []) :
    (queue spurious).Run s [.look c p] [] (s.setPoll c (.polling (Function.update due p false))) :=
  Machine.Run.step (by simp only [queue, h, hp])

lemma run_take {due : ι → Bool} {x : α} {rest : List α} (h : s.polls c = .polling due)
    (hp : s.items p = x :: rest) : (queue spurious).Run s [.take c p] []
      ({ s with items := Function.update s.items p rest }.setPoll c (.answered (some (p, x)))) :=
  Machine.Run.step (by simp only [queue, h, hp])

lemma run_miss {due : ι → Bool} (h : s.polls c = .polling due)
    (hdue : spurious = false → ∀ p, due p = false) :
    (queue spurious).Run s [.miss c] [] (s.setPoll c (.answered none)) := by
  have hmiss : spurious = true ∨ ∀ p, due p = false := by
    cases spurious with
    | false => exact .inr (hdue rfl)
    | true => exact .inl rfl
  exact Machine.Run.step (by simp only [queue, h, if_pos hmiss])

end moves

def called (p : ι) (tr : List (Obs ι κ α)) : List α :=
  share p (tr.filterMap fun
    | .called p x => some (p, x)
    | _ => none)

def accepted (p : ι) (tr : List (Obs ι κ α)) : List α :=
  share p (tr.filterMap fun
    | .enqueued p x true => some (p, x)
    | _ => none)

def received (c : κ) (tr : List (Obs ι κ α)) : List (ι × α) :=
  share c (tr.filterMap fun
    | .dequeued c p x => some (c, p, x)
    | _ => none)

def Call.accepted : Call α → List α
  | .answered x true => [x]
  | _ => []

def Call.waiting : Call α → List α
  | .pending x => [x]
  | .answered x true => [x]
  | _ => []

def Poll.received : Poll ι α → List (ι × α)
  | .answered (some y) => [y]
  | _ => []

structure Accounts (tr : List (Obs ι κ α)) (s : State ι κ α) (taken : List (κ × ι × α)) : Prop where
  put : ∀ p, accepted p tr ++ (s.calls p).accepted = share p (taken.map Prod.snd) ++ s.items p
  got : ∀ c, received c tr ++ (s.polls c).received = share c taken
  asked : ∀ p, (accepted p tr ++ (s.calls p).waiting).Sublist (called p tr)

section step

variable {tr : List (Obs ι κ α)} {s : State ι κ α} {taken : List (κ × ι × α)}

omit [DecidableEq κ] in
lemma called_append (p : ι) (tr os : List (Obs ι κ α)) :
    called p (tr ++ os) = called p tr ++ called p os := by
  rw [called, List.filterMap_append, share_append]
  rfl

omit [DecidableEq κ] in
lemma accepted_append (p : ι) (tr os : List (Obs ι κ α)) :
    accepted p (tr ++ os) = accepted p tr ++ accepted p os := by
  rw [accepted, List.filterMap_append, share_append]
  rfl

omit [DecidableEq ι] in
lemma received_append (c : κ) (tr os : List (Obs ι κ α)) :
    received c (tr ++ os) = received c tr ++ received c os := by
  rw [received, List.filterMap_append, share_append]
  rfl

lemma Accounts.setCall (h : Accounts tr s taken) {p : ι} {call : Call α} {os : List (Obs ι κ α)}
    (items : ProducerQueue ι α) (more : List α)
    (hself : accepted p os ++ call.accepted = (s.calls p).accepted ++ more)
    (hasked : (accepted p os ++ call.waiting).Sublist ((s.calls p).waiting ++ called p os))
    (hother : ∀ q ≠ p, accepted q os = [] ∧ called q os = []) (hgot : ∀ c, received c os = [])
    (hitems : items p = s.items p ++ more) (hrest : ∀ q ≠ p, items q = s.items q) :
    Accounts (tr ++ os) ({ s with items }.setCall p call) taken where
  put q := by
    rw [accepted_append]
    rcases eq_or_ne q p with rfl | hne
    · have hcall : ({ s with items }.setCall q call).calls q = call := Function.update_self ..
      rw [hcall, List.append_assoc, hself, ← List.append_assoc, h.put, List.append_assoc]
      exact congrArg _ hitems.symm
    · have hcall : ({ s with items }.setCall p call).calls q = s.calls q :=
        Function.update_of_ne hne ..
      rw [hcall, (hother q hne).1, List.append_nil, h.put]
      exact congrArg _ (hrest q hne).symm
  got c := by
    rw [received_append, hgot, List.append_nil]
    exact h.got c
  asked q := by
    rw [accepted_append, called_append]
    rcases eq_or_ne q p with rfl | hne
    · have hcall : ({ s with items }.setCall q call).calls q = call := Function.update_self ..
      rw [hcall, List.append_assoc]
      refine (hasked.append_left _).trans ?_
      rw [← List.append_assoc]
      exact (h.asked q).append_right _
    · have hcall : ({ s with items }.setCall p call).calls q = s.calls q :=
        Function.update_of_ne hne ..
      rw [hcall, (hother q hne).1, (hother q hne).2, List.append_nil, List.append_nil]
      exact h.asked q

lemma Accounts.setPoll (h : Accounts tr s taken) {c : κ} {poll : Poll ι α} {os : List (Obs ι κ α)}
    (items : ProducerQueue ι α) (more : List (ι × α))
    (hself : received c os ++ poll.received = (s.polls c).received ++ more)
    (hother : ∀ d ≠ c, received d os = []) (hput : ∀ p, accepted p os = [] ∧ called p os = [])
    (hitems : ∀ p, s.items p = share p more ++ items p) :
    Accounts (tr ++ os) ({ s with items }.setPoll c poll) (taken ++ more.map (c, ·)) where
  put p := by
    have hsnd : (more.map (c, ·)).map Prod.snd = more := by simp
    rw [accepted_append, (hput p).1, List.append_nil, List.map_append, hsnd, share_append,
      List.append_assoc]
    exact (h.put p).trans (congrArg _ (hitems p))
  got d := by
    rw [received_append, share_append]
    rcases eq_or_ne d c with rfl | hne
    · have hpoll : ({ s with items }.setPoll d poll).polls d = poll := Function.update_self ..
      rw [hpoll, List.append_assoc, hself, ← List.append_assoc, h.got, share_map_self]
    · have hpoll : ({ s with items }.setPoll c poll).polls d = s.polls d :=
        Function.update_of_ne hne ..
      rw [hpoll, hother d hne, List.append_nil, h.got, share_map_of_ne _ hne.symm, List.append_nil]
  asked p := by
    rw [accepted_append, called_append, (hput p).1, (hput p).2, List.append_nil, List.append_nil]
    exact h.asked p

variable [Fintype ι] {spurious : Bool}

lemma Accounts.step (h : Accounts tr s taken) {a : Action ι κ α} {t : State ι κ α}
    {os : List (Obs ι κ α)} (hs : (queue spurious).step s a = some (t, os)) :
    ∃ taken', Accounts (tr ++ os) t taken' := by
  have same (items : ProducerQueue ι α) (p : ι) :
      items p = share p ([] : List (ι × α)) ++ items p := rfl
  cases a with
  | call p x =>
    simp only [queue] at hs
    split at hs <;> cases hs
    rename_i hc
    refine ⟨taken, h.setCall s.items [] ?_ ?_ (fun q hq => ⟨rfl, ?_⟩) (fun _ => rfl) (by simp)
      (fun _ _ => rfl)⟩
    · simp [hc, accepted, Call.accepted]
    · simp [hc, accepted, called, Call.waiting]
    · simp [called, share, hq.symm]
  | put p =>
    simp only [queue] at hs
    split at hs <;> cases hs
    rename_i x hc
    refine ⟨taken, h.setCall (s.items.enqueue p x) [x] ?_ ?_ (fun _ _ => ⟨rfl, rfl⟩) (fun _ => rfl)
      (s.items.enqueue_self p x) (fun q hq => s.items.enqueue_of_ne x hq)⟩
    · simp [hc, accepted, Call.accepted]
    · simp [hc, accepted, called, Call.waiting]
  | refuse p =>
    simp only [queue] at hs
    split at hs <;> cases hs
    rename_i x hc
    refine ⟨taken, h.setCall s.items [] ?_ ?_ (fun _ _ => ⟨rfl, rfl⟩) (fun _ => rfl) (by simp)
      (fun _ _ => rfl)⟩
    · simp [hc, accepted, Call.accepted]
    · simp [accepted, Call.waiting]
  | answer p =>
    simp only [queue] at hs
    split at hs <;> cases hs
    rename_i x success hc
    refine ⟨taken, h.setCall s.items [] ?_ ?_ (fun q hq => ⟨?_, rfl⟩) (fun _ => rfl) (by simp)
      (fun _ _ => rfl)⟩
    · cases success <;> simp [hc, accepted, Call.accepted]
    · cases success <;> simp [hc, accepted, called, Call.waiting]
    · cases success <;> simp [accepted, share, hq.symm]
  | poll c =>
    simp only [queue] at hs
    split at hs <;> cases hs
    rename_i hc
    refine ⟨_, h.setPoll s.items [] ?_ (fun _ _ => rfl) (fun _ => ⟨rfl, rfl⟩)
      (same s.items)⟩
    simp [hc, received, Poll.received]
  | look c p =>
    simp only [queue] at hs
    split at hs <;> cases hs
    rename_i due hc _
    refine ⟨_, h.setPoll s.items [] ?_ (fun _ _ => rfl) (fun _ => ⟨rfl, rfl⟩)
      (same s.items)⟩
    simp [hc, received, Poll.received]
  | take c p =>
    simp only [queue] at hs
    split at hs <;> cases hs
    rename_i due x rest hc hp
    refine ⟨_, h.setPoll (Function.update s.items p rest) [(p, x)] ?_
      (fun _ _ => rfl) (fun _ => ⟨rfl, rfl⟩) fun q => ?_⟩
    · simp [hc, received, Poll.received]
    · rcases eq_or_ne q p with rfl | hne
      · rw [Function.update_self, hp, share_cons_self]
        rfl
      · rw [Function.update_of_ne hne, share_cons_of_ne x [] hne.symm]
        rfl
  | miss c =>
    simp only [queue] at hs
    split at hs
    · split_ifs at hs
      rename_i due hc _
      cases hs
      refine ⟨_, h.setPoll s.items [] ?_ (fun _ _ => rfl) (fun _ => ⟨rfl, rfl⟩)
        (same s.items)⟩
      simp [hc, received, Poll.received]
    · cases hs
  | answerPoll c =>
    simp only [queue] at hs
    split at hs <;> cases hs
    · rename_i p x hc
      refine ⟨_, h.setPoll s.items [] ?_ ?_ (fun _ => ⟨rfl, rfl⟩) (same s.items)⟩
      · simp [hc, received, Poll.received]
      · exact fun d hd => by simp [received, share, hd.symm]
    · rename_i hc
      refine ⟨_, h.setPoll s.items [] ?_ (fun _ _ => rfl) (fun _ => ⟨rfl, rfl⟩)
        (same s.items)⟩
      simp [hc, received, Poll.received]

lemma Run.accounts {as : List (Action ι κ α)} (h : (queue spurious).Run .initial as tr s) :
    ∃ taken, Accounts tr s taken := by
  apply h.invariant (P := fun tr s => ∃ taken, Accounts tr s taken)
  · exact ⟨[], fun _ => rfl, fun _ => rfl, fun _ => List.Sublist.refl _⟩
  · intro _ _ _ _ _ _ _ ⟨taken, hi⟩ _ hs
    exact hi.step hs

end step

end AtomicQueues
