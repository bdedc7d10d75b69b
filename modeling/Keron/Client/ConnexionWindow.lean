import Keron.Client.ChatWindow

/-! The window of the main menu (`ConnexionWindow.cs`), and the two windows at work on one host. -/

namespace Keron.Client

open Keron.Schema.NetMessages TraceMachines

inductive Reply
  | throws
  | returns
  | peer (p : Peer)
  deriving DecidableEq, Repr

def Reply.ofThrows (throws : Bool) : Reply := if throws then .throws else .returns

def Service.reply : Service → Reply
  | .throws => .throws
  | .timeout | .event _ => .returns

def Attempt.replies : Attempt → List Reply
  | .initializeThrows => [.throws]
  | .connectThrows => [.returns, .throws]
  | .connects peer .timeout => [.returns, .peer peer, .returns, .returns, .returns]
  | .connects peer service => [.returns, .peer peer, service.reply]

def Attempt.throws : Attempt → Bool
  | .connects _ .timeout | .connects _ (.event _) => false
  | _ => true

inductive WindowObs
  | enet (call : ENetCall) (reply : Reply)
  | appended (text : String)
  | loadGame
  deriving DecidableEq, Repr

def Obs.replied (reply : Reply) : Obs → WindowObs
  | .enet call => .enet call reply
  | .appended text => .appended text

def Action.reply : Action → Reply
  | .fixedUpdate service => service.reply
  | .edit _ => .returns
  | .envoyer throws => .ofThrows throws

structure ConnexionWindow where
  server : String
  surnom : String
  savedServersList : List String
  deriving DecidableEq, Repr

/-- What the text fields and the buttons return while the window is drawn, and what ENetCS answers
when the button `Connect` was clicked. -/
structure Gui where
  server : String
  surnom : String
  save : Bool
  connect : Option Attempt
  erase : Bool
  picked : ℕ → Bool

namespace ConnexionWindow

def initial : ConnexionWindow := ⟨"", "", []⟩

def drawServers (w : ConnexionWindow) (gui : Gui) : ConnexionWindow :=
  let server := if gui.erase then "" else w.server
  { w with
    server := w.savedServersList.zipIdx.foldl
      (fun server s => if gui.picked s.2 then s.1 else server) server }

def drawContent (w : ConnexionWindow) (u : ConnexionUtils) (gui : Gui) :
    ConnexionWindow × ConnexionUtils × List WindowObs :=
  let savedServersList :=
    if gui.save then w.savedServersList ++ [gui.server] else w.savedServersList
  let w : ConnexionWindow := ⟨gui.server, gui.surnom, savedServersList⟩
  match gui.connect with
  | none => (w.drawServers gui, u, [])
  | some enet =>
    if w.server ≠ "" ∧ w.surnom ≠ "" then
      let (u, calls) := u.connectTo w.server w.surnom enet
      let os := List.zipWith .enet calls enet.replies
      if (parseServer w.server).isNone || enet.throws then (w, u, os)
      else (w.drawServers gui, u, if u.isConnected then os ++ [.loadGame] else os)
    else (w.drawServers gui, u, [])

end ConnexionWindow

structure Host where
  initialised : Bool
  peers : List Peer
  deriving DecidableEq, Repr

namespace Host

def initial : Host := ⟨false, []⟩

def after (h : Host) : ENetCall → Reply → Host
  | .initializeClient _, .returns => ⟨true, []⟩
  | .connect .., .peer p => { h with peers := p :: h.peers }
  | .dispose, .returns => ⟨false, []⟩
  | _, _ => h

def allows (h : Host) : ENetCall → Bool
  | .initializeClient _ => !h.initialised
  | .connect .. | .service _ => h.initialised
  | .disconnect peer _ | .send peer .. => peer.any (· ∈ h.peers)
  | .dispose => true

def every (p : Host → ENetCall → Reply → Bool) : Host → List WindowObs → Bool
  | _, [] => true
  | h, .enet call reply :: os => p h call reply && every p (h.after call reply) os
  | h, _ :: os => every p h os

def respected : Host → List WindowObs → Bool := every fun h call _ => h.allows call

def answers : Host → List WindowObs → Bool :=
  every fun h call reply => h.allows call || reply = .throws

def run (h : Host) (os : List WindowObs) : Host :=
  os.foldl (fun h o => match o with
    | .enet call reply => h.after call reply
    | _ => h) h

end Host

structure Game where
  host : Host
  connexionWindow : ConnexionWindow
  chatWindow : ChatWindow

/-- What the game calls, and what ENetCS answers. The two windows live in different scenes, but any
order of the calls is allowed. -/
inductive Callback
  | newConnexionWindow (throws : Bool)
  | draw (gui : Gui)
  | newChatWindow
  | chat (a : Action)

namespace Game

def initial : Game := ⟨.initial, .initial, .opened .initial⟩

def respond (K : Codec) (s : Game) : Callback → Game × List WindowObs
  | .newConnexionWindow throws =>
    let (u, calls) := s.chatWindow.connexion.disconnect
    ({ s with connexionWindow := .initial, chatWindow := { s.chatWindow with connexion := u } },
      calls.map fun call => .enet call (.ofThrows throws))
  | .draw gui =>
    let (w, u, os) := s.connexionWindow.drawContent s.chatWindow.connexion gui
    ({ s with connexionWindow := w, chatWindow := { s.chatWindow with connexion := u } }, os)
  | .newChatWindow => ({ s with chatWindow := .opened s.chatWindow.connexion }, [])
  | .chat a =>
    let (w, os) := s.chatWindow.step K a
    ({ s with chatWindow := w }, os.map (Obs.replied a.reply))

end Game

def game (K : Codec) : Machine Game Callback WindowObs where
  step s c :=
    let (t, os) := s.respond K c
    if s.host.answers os then some ({ t with host := s.host.run os }, os) else none

end Keron.Client
