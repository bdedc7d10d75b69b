import Keron.Client.Connexion
import Keron.Library.TraceMachines

/-! The chat window (`ChatWindow.cs`), and what its log shows of the events it is delivered. -/

namespace Keron.Client

open Keron.Schema.NetMessages TraceMachines

structure ChatWindow where
  connexion : ConnexionUtils
  message : String
  messages : String
  deriving DecidableEq, Repr

inductive Obs
  | enet (call : ENetCall)
  | appended (text : String)
  deriving DecidableEq, Repr

inductive Action
  | fixedUpdate (service : Service)
  | edit (message : String)
  | envoyer (throws : Bool)
  deriving DecidableEq, Repr

namespace ChatWindow

def opened (connexion : ConnexionUtils) : ChatWindow := ⟨connexion, "", ""⟩

variable (K : Codec) (w : ChatWindow)

def fixedUpdate (service : Service) : ChatWindow × List Obs :=
  match w.connexion.receiveChatMessage K service with
  | none => (w, [.enet (.service 10)])
  | some receiveMessage =>
    if receiveMessage ≠ "" then
      ({ w with messages := w.messages ++ ("\n" ++ receiveMessage) },
        [.enet (.service 10), .appended receiveMessage])
    else (w, [.enet (.service 10)])

def envoyer (throws : Bool) : ChatWindow × List Obs :=
  if w.connexion.isConnected ∧ w.message ≠ "" then
    (if throws then w else { w with message := "" },
      [.enet (w.connexion.sendChatMessage K w.message)])
  else (w, [])

def step : Action → ChatWindow × List Obs
  | .fixedUpdate service => w.fixedUpdate K service
  | .edit message => ({ w with message := message }, [])
  | .envoyer throws => w.envoyer K throws

end ChatWindow

def chatWindow (K : Codec) : Machine ChatWindow Action Obs := ⟨fun w a => some (w.step K a)⟩

def Obs.appended? : Obs → Option String
  | .appended text => some text
  | _ => none

def appended (tr : List Obs) : List String := tr.filterMap Obs.appended?

def Action.event? : Action → Option Event
  | .fixedUpdate (.event ev) => some ev
  | _ => none

@[simp] lemma appended_append (tr os : List Obs) :
    appended (tr ++ os) = appended tr ++ appended os :=
  List.filterMap_append

def serviced (acts : List Action) : List Event := acts.filterMap Action.event?

def Codec.chat? (K : Codec) (ev : Event) : Option Chat :=
  if ev.type = .receive then
    match K.getRootAsNetMessage ev.packet with
    | some ⟨id, some (.chat mesChat)⟩ => if id = NetID.Chat then some mesChat else none
    | _ => none
  else none

def ConnexionUtils.chatText (s : ConnexionUtils) (mesChat : Chat) : String :=
  chatLine (if mesChat.from = some s.userName then "FF8585" else "CCCCFF") mesChat

/-- Between the tags of some colour the line names the author, and then comes the message. A string
that is absent shows as nothing. -/
def ShowsChat (line : String) (mesChat : Chat) : Prop :=
  ∃ colour author text : String, line =
      "<b><color=#" ++ colour ++ ">" ++ author ++ ": " ++ "</color></b>" ++ text ∧
    colour ∈ ["FF8585", "CCCCFF"] ∧
    (mesChat.from = some author ∨ mesChat.from = none ∧ author = "") ∧
    (mesChat.message = some text ∨ mesChat.message = none ∧ text = "")

structure LogShows (tr : List Obs) (w : ChatWindow) (chats : List Chat) : Prop where
  lines : List.Forall₂ ShowsChat (appended tr) chats
  messages : w.messages = String.join ((appended tr).map ("\n" ++ ·))

lemma getD_cases (s : Option String) : s = some (s.getD "") ∨ s = none ∧ s.getD "" = "" := by
  cases s with
  | none => exact .inr ⟨rfl, rfl⟩
  | some text => exact .inl rfl

lemma showsChat_chatText (s : ConnexionUtils) (mesChat : Chat) :
    ShowsChat (s.chatText mesChat) mesChat := by
  refine ⟨_, _, _, rfl, ?_, getD_cases mesChat.from, getD_cases mesChat.message⟩
  split_ifs <;> simp

lemma chatText_ne_empty (s : ConnexionUtils) (mesChat : Chat) : s.chatText mesChat ≠ "" := by
  intro h
  delta ConnexionUtils.chatText ConnexionUtils.chatLine at h
  simp only [String.append_assoc] at h
  have hprefix := (String.append_eq_empty_iff.mp h).1
  exact absurd hprefix (by decide)

lemma getRootAsNetMessage_of_chat {K : Codec} {ev : Event} {mesChat : Chat} :
    K.chat? ev = some mesChat ↔ ev.type = .receive ∧
      K.getRootAsNetMessage ev.packet = some ⟨NetID.Chat, some (.chat mesChat)⟩ := by
  unfold Codec.chat?
  split_ifs with ht
  · rcases K.getRootAsNetMessage ev.packet with _ | ⟨id, _ | (_ | _ | _ | _)⟩ <;>
      simp [ht, and_comm]
  · simp [ht]

lemma receiveChatMessage_of_chat {K : Codec} {ev : Event} {mesChat : Chat}
    (h : K.chat? ev = some mesChat) (s : ConnexionUtils) :
    s.receiveChatMessage K (.event ev) = some (s.chatText mesChat) := by
  obtain ⟨ht, hm⟩ := getRootAsNetMessage_of_chat.mp h
  simp [ConnexionUtils.receiveChatMessage, ConnexionUtils.chatText, ht, hm]

lemma receiveChatMessage_of_not_chat {K : Codec} {ev : Event} (h : K.chat? ev = none)
    (s : ConnexionUtils) : s.receiveChatMessage K (.event ev) = none ∨
      s.receiveChatMessage K (.event ev) = some "" := by
  by_cases ht : ev.type = .receive
  · rcases hm : K.getRootAsNetMessage ev.packet with _ | ⟨id, m⟩
    · exact .inl (by simp [ConnexionUtils.receiveChatMessage, ht, hm])
    · by_cases hid : id = NetID.Chat
      · refine .inl ?_
        rcases m with _ | (_ | _ | _ | _) <;>
          simp_all [ConnexionUtils.receiveChatMessage, Codec.chat?]
      · exact .inr (by simp [ConnexionUtils.receiveChatMessage, ht, hm, hid])
  · exact .inr (by simp [ConnexionUtils.receiveChatMessage, ht])

variable {K : Codec} {u : ConnexionUtils} {acts : List Action} {tr os : List Obs}
  {w v : ChatWindow} {a : Action}

lemma LogShows.append {chats chats' : List Chat} (h : LogShows tr w chats)
    (hos : appended os = chats'.map w.connexion.chatText)
    (hv : v.messages = w.messages ++
      String.join ((chats'.map w.connexion.chatText).map ("\n" ++ ·))) :
    LogShows (tr ++ os) v (chats ++ chats') where
  lines := by
    rw [appended_append, hos]
    refine List.rel_append h.lines ?_
    rw [List.forall₂_map_left_iff]
    exact List.forall₂_same.mpr fun mesChat _ => showsChat_chatText w.connexion mesChat
  messages := by rw [hv, h.messages, appended_append, hos, List.map_append, String.join_append]

lemma fixedUpdate_cases (service : Service) :
    (w.fixedUpdate K service = (w, [.enet (.service 10)]) ∧
      ∀ ev, service = .event ev → K.chat? ev = none) ∨
    ∃ ev mesChat, service = .event ev ∧ K.chat? ev = some mesChat ∧
      w.fixedUpdate K service =
        ({ w with messages := w.messages ++ ("\n" ++ w.connexion.chatText mesChat) },
          [.enet (.service 10), .appended (w.connexion.chatText mesChat)]) := by
  rcases service with _ | _ | ev
  · exact .inl ⟨by simp [ChatWindow.fixedUpdate, ConnexionUtils.receiveChatMessage], by simp⟩
  · exact .inl ⟨by simp [ChatWindow.fixedUpdate, ConnexionUtils.receiveChatMessage], by simp⟩
  · cases hc : K.chat? ev with
    | none =>
      refine .inl ⟨?_, by simp [hc]⟩
      rcases receiveChatMessage_of_not_chat hc w.connexion with hr | hr <;>
        simp [ChatWindow.fixedUpdate, hr]
    | some mesChat =>
      have hr := receiveChatMessage_of_chat hc w.connexion
      refine .inr ⟨ev, mesChat, rfl, hc, ?_⟩
      simp [ChatWindow.fixedUpdate, hr, chatText_ne_empty]

lemma logShows_step (a : Action) {chats : List Chat} (h : LogShows tr w chats) :
    LogShows (tr ++ (w.step K a).2) (w.step K a).1 (chats ++ (serviced [a]).filterMap K.chat?) := by
  cases a with
  | fixedUpdate service =>
    simp only [ChatWindow.step]
    rcases fixedUpdate_cases (K := K) (w := w) service with
      ⟨he, hnone⟩ | ⟨ev, mesChat, rfl, hc, he⟩
    · have hchats : (serviced [.fixedUpdate service]).filterMap K.chat? = [] := by
        rcases service with _ | _ | ev <;> simp_all [serviced, Action.event?]
      rw [he, hchats]
      exact h.append rfl (by simp)
    · have hchats : (serviced [.fixedUpdate (.event ev)]).filterMap K.chat? = [mesChat] := by
        simp [serviced, Action.event?, hc]
      rw [he, hchats]
      exact h.append rfl (by simp)
  | edit message =>
    have hchats : (serviced [.edit message]).filterMap K.chat? = [] := rfl
    rw [hchats]
    exact h.append rfl (by simp [ChatWindow.step])
  | envoyer throws =>
    have hchats : (serviced [.envoyer throws]).filterMap K.chat? = [] := rfl
    rw [hchats]
    simp only [ChatWindow.step, ChatWindow.envoyer]
    split_ifs <;> exact h.append rfl (by simp)

lemma logShows_run (h : (chatWindow K).Run (.opened u) acts tr w) :
    LogShows tr w ((serviced acts).filterMap K.chat?) := by
  induction h with
  | nil => exact ⟨.nil, rfl⟩
  | @snoc _ _ _ a _ _ _ _ hs ih =>
    obtain ⟨rfl, rfl⟩ := Prod.mk.inj (Option.some.inj hs)
    have hstep := logShows_step (K := K) a ih
    rwa [← List.filterMap_append, serviced, serviced, ← List.filterMap_append] at hstep

end Keron.Client
