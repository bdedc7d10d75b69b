import Keron.Client.Connexion

/-! Under which name, and over which peer, `sendChatMessage` sends while a session is live. -/

namespace Keron.Client

open Keron.Schema.NetMessages

inductive Operation
  | connectTo (server user : String) (enet : Attempt)
  | disconnect
  | sendChatMessage (message : String)
  deriving DecidableEq, Repr

def ConnexionUtils.operate (s : ConnexionUtils) : Operation → ConnexionUtils
  | .connectTo server user enet => (s.connectTo server user enet).1
  | .disconnect => s.disconnect.1
  | .sendChatMessage _ => s

def operated (past : List Operation) : ConnexionUtils :=
  past.foldl ConnexionUtils.operate .initial

namespace Operation

def user? : Operation → Option String
  | .connectTo _ user _ => some user
  | _ => none

def peer? : Operation → Option Peer
  | .connectTo server _ (.connects peer _) => (parseServer server).map fun _ => peer
  | _ => none

def establishes : Operation → Bool
  | .connectTo server _ (.connects _ (.event ev)) =>
    (parseServer server).isSome && ev.type = .connect
  | _ => false

end Operation

def lastUser (past : List Operation) : Option String := past.reverse.findSome? Operation.user?

/-- The session that `connectTo` established for `user` over `peer` is live: the calls `since`
neither disconnect it nor establish another. -/
def Live (past since : List Operation) (user : String) (peer : Peer) : Prop :=
  ∃ before c, past = before ++ c :: since ∧ c.establishes = true ∧ c.user? = some user ∧
    c.peer? = some peer ∧ ∀ o ∈ since, o ≠ .disconnect ∧ o.establishes = false

def SentAs (s : ConnexionUtils) (message user : String) (peer : Peer) : Prop :=
  ∀ K, s.sendChatMessage K message =
    .send (some peer) 0 (K.finishNetMessageBuffer (createChat user message)) 1

def ChatsNamed (ops : List Operation) : Prop :=
  ∀ past message rest, ops = past ++ .sendChatMessage message :: rest →
    ∀ since user peer, Live past since user peer → (∀ o ∈ since, o.peer? = none) →
      SentAs (operated past) message user peer

/-- While a session is live, what is sent is sent over its peer, which was not obtained for another
connection since, and under its name. -/
def SessionsIntact (ops : List Operation) : Prop :=
  ∀ past message rest, ops = past ++ .sendChatMessage message :: rest →
    ∀ since user peer, Live past since user peer →
      SentAs (operated past) message user peer ∧ ∀ o ∈ since, o.peer? ≠ some peer

def NamesKept (ops : List Operation) : Prop :=
  ∀ past message rest, ops = past ++ .sendChatMessage message :: rest →
    ∀ since user peer, Live past since user peer → (∀ o ∈ since, o.peer? = none) →
      lastUser past = some user

def PeersKept (ops : List Operation) : Prop :=
  ∀ past message rest, ops = past ++ .sendChatMessage message :: rest →
    ∀ since user peer, Live past since user peer →
      (∀ o ∈ since, o.peer? = none) ∧ lastUser past = some user

lemma operate_connectTo (s : ConnexionUtils) (server user : String) (enet : Attempt) :
    (s.operate (.connectTo server user enet)).userName = user ∧
      (s.operate (.connectTo server user enet)).peer =
        (Operation.connectTo server user enet).peer?.or s.peer := by
  cases hp : parseServer server with
  | none =>
    rcases enet with _ | _ | ⟨peer, service⟩ <;>
      simp [ConnexionUtils.operate, ConnexionUtils.connectTo, Operation.peer?, hp]
  | some address =>
    rcases enet with _ | _ | ⟨peer, _ | _ | ev⟩
    case connects.event =>
      by_cases ht : ev.type = .connect <;>
        simp [ConnexionUtils.operate, ConnexionUtils.connectTo, Operation.peer?, hp, ht]
    all_goals simp [ConnexionUtils.operate, ConnexionUtils.connectTo, Operation.peer?, hp]

lemma operated_snoc (past : List Operation) (o : Operation) :
    operated (past ++ [o]) = (operated past).operate o := by
  simp [operated]

lemma userName_operated (past : List Operation) :
    (operated past).userName = (lastUser past).getD "" := by
  induction past using List.reverseRecOn with
  | nil => rfl
  | append_singleton past o ih =>
    rw [operated_snoc, lastUser, List.reverse_concat, List.findSome?_cons]
    cases o with
    | connectTo server user enet => exact (operate_connectTo _ server user enet).1
    | disconnect => exact ih
    | sendChatMessage message => exact ih

lemma peer_operated (past : List Operation) :
    (operated past).peer = past.reverse.findSome? Operation.peer? := by
  induction past using List.reverseRecOn with
  | nil => rfl
  | append_singleton past o ih =>
    rw [operated_snoc, List.reverse_concat, List.findSome?_cons]
    cases o with
    | connectTo server user enet =>
      rw [(operate_connectTo _ server user enet).2, ih]
      cases (Operation.connectTo server user enet).peer? <;> rfl
    | disconnect => exact ih
    | sendChatMessage message => exact ih

lemma sentAs_iff (s : ConnexionUtils) (message user : String) (peer : Peer) :
    SentAs s message user peer ↔ s.userName = user ∧ s.peer = some peer := by
  constructor
  · intro h
    have hsame := h ⟨fun _ => none, fun m => if m = createChat user message then [] else [0]⟩
    simp [ConnexionUtils.sendChatMessage, createChat] at hsame
    exact hsame.symm
  · rintro ⟨hu, hp⟩ K
    rw [ConnexionUtils.sendChatMessage, hu, hp]

section Live

variable {past since : List Operation} {user : String} {peer : Peer}

lemma Live.userName_iff (h : Live past since user peer) :
    (operated past).userName = user ↔ lastUser past = some user := by
  obtain ⟨before, c, rfl, -, hc, -⟩ := h
  obtain ⟨last, hlast⟩ : ∃ last, lastUser (before ++ c :: since) = some last := by
    rw [lastUser, ← Option.isSome_iff_exists, List.findSome?_isSome_iff]
    exact ⟨c, by simp, by simp [hc]⟩
  rw [userName_operated, hlast, Option.getD_some, Option.some.injEq]

lemma Live.peer_eq (h : Live past since user peer) :
    (operated past).peer = (since.reverse.findSome? Operation.peer?).or (some peer) := by
  obtain ⟨before, c, rfl, -, -, hc, -⟩ := h
  rw [peer_operated, List.reverse_append, List.reverse_cons, List.append_assoc,
    List.findSome?_append, List.singleton_append, List.findSome?_cons, hc]

lemma Live.peer_of_kept (h : Live past since user peer) (hkept : ∀ o ∈ since, o.peer? = none) :
    (operated past).peer = some peer := by
  have hnone : since.reverse.findSome? Operation.peer? = none :=
    List.findSome?_eq_none_iff.mpr fun o ho => hkept o (List.mem_reverse.mp ho)
  rw [h.peer_eq, hnone, Option.none_or]

lemma Live.kept_of_peer (h : Live past since user peer) (hpeer : (operated past).peer = some peer)
    (hnot : ∀ o ∈ since, o.peer? ≠ some peer) : ∀ o ∈ since, o.peer? = none := by
  rw [h.peer_eq] at hpeer
  cases hlast : since.reverse.findSome? Operation.peer? with
  | none => exact fun o ho => List.findSome?_eq_none_iff.mp hlast o (List.mem_reverse.mpr ho)
  | some p =>
    obtain ⟨o, ho, hp⟩ := List.exists_of_findSome?_eq_some hlast
    rw [hlast, Option.some_or] at hpeer
    exact absurd (hp.trans hpeer) (hnot o (List.mem_reverse.mp ho))

lemma Live.sentAs_iff (h : Live past since user peer) (message : String)
    (hkept : ∀ o ∈ since, o.peer? = none) :
    SentAs (operated past) message user peer ↔ lastUser past = some user := by
  rw [Keron.Client.sentAs_iff, h.userName_iff, and_iff_left (h.peer_of_kept hkept)]

end Live

theorem sessions_iff (ops : List Operation) :
    (ChatsNamed ops ↔ NamesKept ops) ∧ (SessionsIntact ops ↔ PeersKept ops) := by
  constructor
  · refine forall₄_congr fun past message rest _ => forall₄_congr fun since user peer h => ?_
    exact imp_congr_right fun hkept => h.sentAs_iff message hkept
  · refine forall₄_congr fun past message rest _ => forall₄_congr fun since user peer h => ?_
    constructor
    · rintro ⟨hsent, hnot⟩
      have hkept := h.kept_of_peer ((sentAs_iff _ _ _ _).mp hsent).2 hnot
      exact ⟨hkept, (h.sentAs_iff message hkept).mp hsent⟩
    · rintro ⟨hkept, hlast⟩
      refine ⟨(h.sentAs_iff message hkept).mpr hlast, fun o ho => ?_⟩
      rw [hkept o ho]
      exact (Option.some_ne_none peer).symm

def renamedByFailure : List Operation :=
  [.connectTo "localhost" "bob" (.connects 0 (.event ⟨.connect, 0, []⟩)),
    .connectTo "localhost:x" "eve" .initializeThrows]

theorem chat_sent_as_eve : ¬ ∀ ops, ChatsNamed ops := by
  intro h
  have hlive : Live renamedByFailure (renamedByFailure.drop 1) "bob" 0 :=
    ⟨[], _, rfl, by decide, rfl, by decide, by decide⟩
  have hsent := h (renamedByFailure ++ [.sendChatMessage "hi"]) renamedByFailure "hi" [] rfl _ _ _
    hlive (by decide)
  exact absurd ((sentAs_iff _ _ _ _).mp hsent).1 (by decide)

end Keron.Client
