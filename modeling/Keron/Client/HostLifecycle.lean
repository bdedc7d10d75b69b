import Keron.Client.ConnexionWindow
import Keron.Schema.WireFormat

/-! In which state of the ENet host the windows make their calls. -/

namespace Keron.Client

open Keron.Schema.NetMessages TraceMachines

def Gui.attempt? (gui : Gui) : Option Attempt :=
  if gui.server ≠ "" ∧ gui.surnom ≠ "" ∧ (parseServer gui.server).isSome = true then gui.connect
  else none

def Callback.attempt? : Callback → Option Attempt
  | .draw gui => gui.attempt?
  | _ => none

def Attempt.leavesOpen : Attempt → Bool
  | .initializeThrows | .connects _ .timeout => false
  | _ => true

def opened (past : List Callback) : Bool :=
  past.any fun c => c.attempt?.any Attempt.leavesOpen

def InTurn (past : List Callback) (c : Callback) : Prop :=
  (c.attempt?.isSome = true → opened past = false) ∧
    ∀ service, c = .chat (.fixedUpdate service) → opened past = true

structure Connected (past : List Callback) (s : Game) : Prop where
  opened : s.host.initialised = opened past
  initialised : s.host.peers ≠ [] → s.host.initialised = true
  peer : s.chatWindow.connexion.isConnected = true →
    ∃ p ∈ s.host.peers, s.chatWindow.connexion.peer = some p

variable {K : Codec} {s t : Game} {past : List Callback} {os : List WindowObs}

namespace Host

variable {p : Host → ENetCall → Reply → Bool} (h : Host)

lemma every_append (os os' : List WindowObs) :
    h.every p (os ++ os') = (h.every p os && (h.run os).every p os') := by
  induction os generalizing h with
  | nil => rfl
  | cons o os ih => cases o <;> simp [every, run, ih, Bool.and_assoc]

lemma run_append (os os' : List WindowObs) : h.run (os ++ os') = (h.run os).run os' :=
  List.foldl_append

lemma every_loaded {rest : List WindowObs} (hrest : rest = [] ∨ rest = [.loadGame])
    (os : List WindowObs) : h.every p (os ++ rest) = h.every p os := by
  rcases hrest with rfl | rfl <;> simp [every_append, every]

lemma run_loaded {rest : List WindowObs} (hrest : rest = [] ∨ rest = [.loadGame])
    (os : List WindowObs) : h.run (os ++ rest) = h.run os := by
  rcases hrest with rfl | rfl <;> simp [run]

end Host

lemma opened_snoc (past : List Callback) (c : Callback) :
    opened (past ++ [c]) = (opened past || c.attempt?.any Attempt.leavesOpen) := by
  simp [opened]

section Attempt

variable {h : Host} {server user : String} {address : String × ℤ} {u v : ConnexionUtils}
  {calls : List ENetCall} {enet : Attempt}

lemma initializeThrows_of_answers (hp : parseServer server = some address)
    (hu : u.connectTo server user enet = (v, calls)) (hopen : h.initialised = true)
    (ha : h.answers (List.zipWith .enet calls enet.replies) = true) : enet = .initializeThrows := by
  obtain rfl : (u.connectTo server user enet).2 = calls := congrArg Prod.snd hu
  rcases enet with _ | _ | ⟨p, _ | _ | ev⟩
  case initializeThrows => rfl
  all_goals
    simp [ConnexionUtils.connectTo, hp, Attempt.replies, Host.answers, Host.every, Host.allows,
      hopen] at ha

lemma connectTo_fresh (hp : parseServer server = some address)
    (hu : u.connectTo server user enet = (v, calls)) (hclosed : h.initialised = false)
    (hpeers : h.peers = []) (hdisconnected : u.connected = false) :
    let os := List.zipWith .enet calls enet.replies
    h.respected os = true ∧ (h.run os).initialised = enet.leavesOpen ∧
      ((h.run os).peers ≠ [] → (h.run os).initialised = true) ∧
      (v.isConnected = true → ∃ p ∈ (h.run os).peers, v.peer = some p) := by
  obtain ⟨rfl, rfl⟩ : (u.connectTo server user enet).1 = v ∧
      (u.connectTo server user enet).2 = calls := Prod.mk.inj hu
  rcases enet with _ | _ | ⟨p, _ | _ | ev⟩
  case connects.event =>
    by_cases ht : ev.type = .connect <;>
      simp [ConnexionUtils.connectTo, ConnexionUtils.isConnected, hp, Attempt.replies,
        Host.respected, Host.every, Host.allows, Host.run, Host.after, Attempt.leavesOpen,
        Service.reply, hclosed, ht, hdisconnected]
  all_goals
    simp [ConnexionUtils.connectTo, ConnexionUtils.isConnected, hp, Attempt.replies,
      Host.respected, Host.every, Host.allows, Host.run, Host.after, Attempt.leavesOpen,
      Service.reply, hclosed, hpeers, hdisconnected]

end Attempt

lemma drawContent_cases {w w' : ConnexionWindow} {u v : ConnexionUtils} {gui : Gui}
    (h : w.drawContent u gui = (w', v, os)) :
    (gui.attempt? = none ∧ os = [] ∧ v.isConnected = u.isConnected ∧ v.peer = u.peer) ∨
    ∃ enet address calls rest, gui.attempt? = some enet ∧ parseServer gui.server = some address ∧
      u.connectTo gui.server gui.surnom enet = (v, calls) ∧ (rest = [] ∨ rest = [.loadGame]) ∧
      os = List.zipWith .enet calls enet.replies ++ rest := by
  cases hc : gui.connect with
  | none =>
    simp only [ConnexionWindow.drawContent, hc, Prod.mk.injEq] at h
    obtain ⟨-, rfl, rfl⟩ := h
    exact .inl ⟨by simp [Gui.attempt?, hc], rfl, rfl, rfl⟩
  | some enet =>
    by_cases hnames : gui.server ≠ "" ∧ gui.surnom ≠ ""
    · cases hp : parseServer gui.server with
      | none =>
        simp only [ConnexionWindow.drawContent, hc, if_pos hnames, hp, ConnexionUtils.connectTo,
          Option.isNone_none, Bool.true_or, if_true, Prod.mk.injEq] at h
        obtain ⟨-, rfl, rfl⟩ := h
        exact .inl ⟨by simp [Gui.attempt?, hp], rfl, rfl, rfl⟩
      | some address =>
        have hsome : gui.attempt? = some enet := by simp [Gui.attempt?, hc, hnames, hp]
        rcases hu : u.connectTo gui.server gui.surnom enet with ⟨v', calls⟩
        simp only [ConnexionWindow.drawContent, hc, if_pos hnames, hp, hu, Option.isNone_some,
          Bool.false_or] at h
        cases ht : enet.throws with
        | true =>
          simp only [ht, if_true, Prod.mk.injEq] at h
          obtain ⟨-, rfl, rfl⟩ := h
          exact .inr ⟨enet, address, calls, [], hsome, rfl, hu, .inl rfl, by simp⟩
        | false =>
          simp only [ht, Bool.false_eq_true, if_false, Prod.mk.injEq] at h
          obtain ⟨-, rfl, rfl⟩ := h
          split_ifs
          · exact .inr ⟨enet, address, calls, [.loadGame], hsome, rfl, hu, .inr rfl, rfl⟩
          · exact .inr ⟨enet, address, calls, [], hsome, rfl, hu, .inl rfl, by simp⟩
    · simp only [ConnexionWindow.drawContent, hc, if_neg hnames, Prod.mk.injEq] at h
      obtain ⟨-, rfl, rfl⟩ := h
      exact .inl ⟨if_neg fun h => hnames ⟨h.1, h.2.1⟩, rfl, rfl, rfl⟩

lemma chat_cases (w : ChatWindow) (a : Action) :
    (w.step K a).1.connexion = w.connexion ∧
      ((∃ service rest, a = .fixedUpdate service ∧ (rest = [] ∨ ∃ text, rest = [.appended text]) ∧
        (w.step K a).2 = .enet (.service 10) :: rest) ∨
      (∀ service, a ≠ .fixedUpdate service) ∧ ((w.step K a).2 = [] ∨
        w.connexion.isConnected = true ∧ ∃ channelID data flags,
          (w.step K a).2 = [.enet (.send w.connexion.peer channelID data flags)])) := by
  cases a with
  | fixedUpdate service =>
    simp only [ChatWindow.step]
    rcases fixedUpdate_cases (K := K) (w := w) service with ⟨he, -⟩ | ⟨ev, mesChat, rfl, -, he⟩
    · rw [he]
      exact ⟨rfl, .inl ⟨service, [], rfl, .inl rfl, rfl⟩⟩
    · rw [he]
      exact ⟨rfl, .inl ⟨_, _, rfl, .inr ⟨_, rfl⟩, rfl⟩⟩
  | edit message => exact ⟨rfl, .inr ⟨by simp, .inl rfl⟩⟩
  | envoyer throws =>
    simp only [ChatWindow.step, ChatWindow.envoyer]
    split_ifs with hc ht
    · exact ⟨rfl, .inr ⟨by simp, .inr ⟨hc.1, _, _, _, rfl⟩⟩⟩
    · exact ⟨rfl, .inr ⟨by simp, .inr ⟨hc.1, _, _, _, rfl⟩⟩⟩
    · exact ⟨rfl, .inr ⟨by simp, .inl rfl⟩⟩

lemma Connected.keeps {c : Callback} (hi : Connected past s)
    (hc : c.attempt?.any Attempt.leavesOpen = false)
    (hhost : t.host = s.host)
    (hconnected : t.chatWindow.connexion.isConnected = s.chatWindow.connexion.isConnected)
    (hpeer : t.chatWindow.connexion.peer = s.chatWindow.connexion.peer) :
    Connected (past ++ [c]) t where
  opened := by rw [hhost, hi.opened, opened_snoc, hc, Bool.or_false]
  initialised := by rw [hhost]; exact hi.initialised
  peer := by rw [hhost, hconnected, hpeer]; exact hi.peer

lemma Connected.allowed {past : List Callback} (hi : Connected past s)
    (hc : s.chatWindow.connexion.isConnected = true) :
    s.chatWindow.connexion.peer.any (· ∈ s.host.peers) = true := by
  obtain ⟨p, hp, he⟩ := hi.peer hc
  simpa [he] using hp

lemma inTurn_of_idle {c : Callback} (hc : c.attempt? = none)
    (hu : ∀ service, c ≠ .chat (.fixedUpdate service)) : InTurn past c :=
  ⟨by simp [hc], fun service he => absurd he (hu service)⟩

lemma lifecycle_newConnexionWindow (throws : Bool) (hi : Connected past s) :
    let (t, os) := s.respond K (.newConnexionWindow throws)
    s.host.respected os = true ∧ s.host.run os = s.host ∧
      t.chatWindow.connexion = s.chatWindow.connexion := by
  by_cases hc : s.chatWindow.connexion.isConnected = true
  · simp [Game.respond, ConnexionUtils.disconnect, hc, Host.respected, Host.every, Host.allows,
      Host.run, Host.after, hi.allowed hc]
  · simp [Game.respond, ConnexionUtils.disconnect, hc, Host.respected, Host.every, Host.run]

lemma lifecycle_chat (a : Action) (hi : Connected past s) :
    let (t, os) := s.respond K (.chat a)
    (s.host.respected os = true ↔ InTurn past (.chat a)) ∧ s.host.run os = s.host ∧
      t.chatWindow.connexion = s.chatWindow.connexion := by
  obtain ⟨hu, hcase⟩ := chat_cases (K := K) s.chatWindow a
  change (s.host.respected ((s.chatWindow.step K a).2.map (Obs.replied a.reply)) = true ↔ _) ∧
    s.host.run ((s.chatWindow.step K a).2.map (Obs.replied a.reply)) = s.host ∧ _
  rcases hcase with ⟨service, rest, rfl, hrest, he⟩ | ⟨ha, he⟩
  · have hturn : InTurn past (.chat (.fixedUpdate service)) ↔ s.host.initialised = true := by
      simp [InTurn, Callback.attempt?, hi.opened]
    rw [he, hturn]
    rcases hrest with rfl | ⟨text, rfl⟩ <;>
      exact ⟨by simp [Obs.replied, Host.respected, Host.every, Host.allows], rfl, hu⟩
  · have hturn : InTurn past (.chat a) := inTurn_of_idle rfl fun service h =>
      ha service (Callback.chat.inj h)
    rcases he with he | ⟨hc, channelID, data, flags, he⟩
    · rw [he]
      exact ⟨iff_of_true rfl hturn, rfl, hu⟩
    · rw [he]
      refine ⟨iff_of_true ?_ hturn, rfl, hu⟩
      simp [Obs.replied, Host.respected, Host.every, Host.allows, hi.allowed hc]

lemma Connected.closed (hi : Connected past s) (hclosed : s.host.initialised = false) :
    s.host.peers = [] ∧ s.chatWindow.connexion.isConnected = false := by
  have hpeers : s.host.peers = [] := by
    by_contra hne
    simp [hi.initialised hne] at hclosed
  refine ⟨hpeers, Bool.eq_false_iff.mpr fun hc => ?_⟩
  obtain ⟨p, hp, -⟩ := hi.peer hc
  simp [hpeers] at hp

lemma lifecycle_draw (gui : Gui) (hi : Connected past s) :
    let (t, os) := s.respond K (.draw gui)
    s.host.answers os = true → (s.host.respected os = true ↔ InTurn past (.draw gui)) ∧
      Connected (past ++ [.draw gui]) { t with host := s.host.run os } := by
  rcases hr : s.connexionWindow.drawContent s.chatWindow.connexion gui with ⟨w, u, os⟩
  simp only [Game.respond, hr]
  intro ha
  rcases drawContent_cases hr with
    ⟨hnone, rfl, hconnected, hpeer⟩ | ⟨enet, address, calls, rest, hsome, hp, hu, hrest, rfl⟩
  · exact ⟨iff_of_true rfl (inTurn_of_idle hnone (by simp)),
      hi.keeps (by simp [Callback.attempt?, hnone]) rfl hconnected hpeer⟩
  · rw [Host.answers, Host.every_loaded _ hrest] at ha
    rw [Host.respected, Host.every_loaded _ hrest, Host.run_loaded _ hrest]
    cases hopen : s.host.initialised with
    | true =>
      -- The attempt stops at the host, which is initialised already.
      obtain rfl := initializeThrows_of_answers hp hu hopen ha
      simp only [ConnexionUtils.connectTo, hp, Prod.mk.injEq] at hu
      obtain ⟨rfl, rfl⟩ := hu
      refine ⟨iff_of_false ?_ fun hturn => ?_, hi.keeps ?_ rfl rfl rfl⟩
      · simp [Attempt.replies, Host.every, Host.allows, hopen]
      · have hclosed := hturn.1 (by simp [Callback.attempt?, hsome])
        simp [← hi.opened, hopen] at hclosed
      · simp [Callback.attempt?, hsome, Attempt.leavesOpen]
    | false =>
      obtain ⟨hpeers, hdisconnected⟩ := hi.closed hopen
      obtain ⟨hr, hinit, hne, hpeer⟩ := connectTo_fresh hp hu hopen hpeers hdisconnected
      refine ⟨iff_of_true hr ⟨fun _ => by rw [← hi.opened, hopen], by simp⟩, ?_, hne, hpeer⟩
      rw [hinit, opened_snoc, ← hi.opened, hopen, Callback.attempt?, hsome, Option.any_some,
        Bool.false_or]

lemma step_game {c : Callback} (hs : (game K).step s c = some (t, os)) :
    s.host.answers os = true ∧ t = { (s.respond K c).1 with host := s.host.run os } ∧
      os = (s.respond K c).2 := by
  simp only [game, Option.ite_none_right_eq_some, Option.some.injEq, Prod.mk.injEq] at hs
  obtain ⟨ha, rfl, rfl⟩ := hs
  exact ⟨ha, rfl, rfl⟩

lemma lifecycle_step {c : Callback} (hi : Connected past s)
    (hs : (game K).step s c = some (t, os)) :
    (s.host.respected os = true ↔ InTurn past c) ∧ Connected (past ++ [c]) t := by
  obtain ⟨ha, rfl, rfl⟩ := step_game hs
  cases c with
  | newConnexionWindow throws =>
    obtain ⟨hr, hrun, hu⟩ := lifecycle_newConnexionWindow (K := K) throws hi
    exact ⟨iff_of_true hr (inTurn_of_idle rfl (by simp)),
      hi.keeps rfl hrun (congrArg _ hu) (congrArg _ hu)⟩
  | draw gui => exact lifecycle_draw (K := K) gui hi ha
  | newChatWindow =>
    exact ⟨iff_of_true rfl (inTurn_of_idle rfl (by simp)), hi.keeps rfl rfl rfl rfl⟩
  | chat a =>
    obtain ⟨hr, hrun, hu⟩ := lifecycle_chat (K := K) a hi
    exact ⟨hr, hi.keeps rfl hrun (congrArg _ hu) (congrArg _ hu)⟩

lemma connected_initial : Connected [] .initial where
  opened := rfl
  initialised h := absurd rfl h
  peer h := by cases h

lemma connected_run {acts : List Callback} {tr : List WindowObs}
    (h : (game K).Run .initial acts tr s) :
    Connected acts s ∧ s.host = Host.initial.run tr := by
  induction h with
  | nil => exact ⟨connected_initial, rfl⟩
  | snoc _ _ hs ih =>
    refine ⟨(lifecycle_step ih.1 hs).2, ?_⟩
    rw [(step_game hs).2.1, ih.2, Host.run_append]

theorem hostRespected_iff {acts : List Callback} {tr : List WindowObs}
    (h : (game K).Run .initial acts tr s) :
    Host.initial.respected tr = true ↔ Justified InTurn acts := by
  induction h with
  | nil => exact iff_of_true rfl justified_nil
  | @snoc _ tr _ _ os _ hr _ hs ih =>
    obtain ⟨hi, hhost⟩ := connected_run hr
    have hstep := (lifecycle_step hi hs).1
    have happend : Host.initial.respected (tr ++ os) =
        (Host.initial.respected tr && (Host.initial.run tr).respected os) :=
      Host.every_append _ tr os
    rw [happend, Bool.and_eq_true, justified_snoc, ← hhost, ih, hstep]

def playedOnce : List Callback :=
  [.newConnexionWindow false,
    .draw ⟨"localhost", "bob", false, some (.connects 0 (.event ⟨.connect, 0, []⟩)), false,
      fun _ => false⟩,
    .newChatWindow, .chat (.fixedUpdate .timeout), .chat (.edit "hi"), .chat (.envoyer false),
    .newConnexionWindow false]

theorem playedOnce_in_turn : ∃ tr s,
    (game ⟨WireFormat.readNetMessage, WireFormat.writeNetMessage⟩).Run .initial playedOnce tr s ∧
      Justified InTurn playedOnce := by
  obtain ⟨tr, s, hr, hrespected⟩ : ∃ tr s,
      (game ⟨WireFormat.readNetMessage, WireFormat.writeNetMessage⟩).Run .initial playedOnce tr s ∧
        Host.initial.respected tr = true := Machine.exists_run_of_exec rfl
  exact ⟨tr, s, hr, (hostRespected_iff hr).mp hrespected⟩

theorem updated_before_connected : ¬ ∀ acts tr s,
    (game ⟨WireFormat.readNetMessage, WireFormat.writeNetMessage⟩).Run .initial acts tr s →
      Host.initial.respected tr = true := by
  intro h
  obtain ⟨tr, s, hr, hrespected⟩ : ∃ tr s,
      (game ⟨WireFormat.readNetMessage, WireFormat.writeNetMessage⟩).Run .initial
        [.newChatWindow, .chat (.fixedUpdate .throws)] tr s ∧
          Host.initial.respected tr = false := Machine.exists_run_of_exec rfl
  simp [h _ _ _ hr] at hrespected

end Keron.Client
