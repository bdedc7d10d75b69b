import Keron.Server.Relay

/-! What `main` does before its loop: the settings of `server.json` are loaded, the host is created
and the workers are spawned. -/

namespace Keron.Server

open Keron.Schema.NetMessages

structure Configuration where
  address : Option String
  port : BitVec 16
  maxclients : BitVec 32
  datastore : Option String
  logs : Option String
  concurrency : BitVec 32
  deriving DecidableEq, Repr

def defaultConfiguration : Configuration where
  address := "*"
  port := BitVec.ofNat 16 (('K'.toNat <<< 8) ||| ('S'.toNat <<< 4) ||| 'P'.toNat)
  maxclients := 8
  datastore := "server.db"
  logs := "logs/keron.log"
  concurrency := 0

/-- `flatbuffers::Parser`. A parser keeps the schema it has read, and in its builder the table that
it made of a JSON text; what the builder holds need not be a table. -/
structure Parser (τ : Type) where
  initial : τ
  parse : String → τ → Bool × τ
  getConfiguration : τ → Option Configuration
  generateText : τ → Configuration → String

structure Environment where
  serverSchema : Option String
  serverJson : Option String
  saveFile : Bool
  rotatingLogger : Bool
  registerSignalHandlers : Bool
  openStore : Bool
  setHost : Option (BitVec 32)
  hostCreate : Bool

/-- A host that was not written is indeterminate. -/
structure ENetAddress where
  host : Option (BitVec 32)
  port : BitVec 16
  deriving DecidableEq, Repr

def ENET_HOST_ANY : BitVec 32 := 0

inductive Setting
  | logs
  | datastore
  | address
  deriving DecidableEq, Repr

inductive Halt
  | runtimeError (what : String)
  | spdlogEx
  | systemError
  | lmdbError
  | exitCode (code : ℤ)
  -- `settings` points to no table.
  | noTable
  | nullString (setting : Setting)
  deriving DecidableEq, Repr

/-- The server at the message `Listening on`. `parsed` is what `Parser::Parse` returned. -/
structure Listening where
  parsed : Bool
  settings : Configuration
  address : ENetAddress
  deriving DecidableEq, Repr

def cStr (s : String) : String := String.ofList (s.toList.takeWhile (· ≠ '\x00'))

def orHalt {α : Type} (halt : Halt) : Option α → Except Halt α
  | some a => .ok a
  | none => .error halt

def check (halt : Halt) (ok : Bool) : Except Halt Unit := if ok then .ok () else .error halt

variable {τ : Type} (F : Parser τ) (env : Environment)

/-- The content of `server.json` afterwards, and how the function ends: with what the last
`Parse` returned and the parser, or with an exception. -/
def loadConfiguration : Option String × Except Halt (Bool × τ) :=
  match env.serverSchema with
  | none => (env.serverJson, .error (.runtimeError "Cannot load server schema."))
  | some serverschema =>
    let (_, parser) := F.parse (cStr serverschema) F.initial
    match env.serverJson with
    | none =>
      let configjson := F.generateText parser defaultConfiguration
      if env.saveFile then
        (some configjson, .error (.runtimeError ("A default configuration has been written. " ++
          "Check the content of `server.json`, and restart the server.")))
      else (none, .error (.runtimeError "Unable to write default configuration!"))
    | some configjson => (some configjson, .ok (F.parse (cStr configjson) parser))

def initializeServerAddress (config : Configuration) : Except Halt ENetAddress := do
  let host ← orHalt (.nullString .address) config.address
  if cStr host = "*" then return ⟨some ENET_HOST_ANY, config.port⟩
  -- The result of `enet_address_set_host` is not looked at.
  else return ⟨env.setHost, config.port⟩

def listen (parsed : Bool) (parser : τ) : Except Halt Listening := do
  let settings ← orHalt .noTable (F.getConfiguration parser)
  let _ ← orHalt (.nullString .logs) settings.logs
  check .spdlogEx env.rotatingLogger
  check .systemError env.registerSignalHandlers
  let _ ← orHalt (.nullString .datastore) settings.datastore
  check .lmdbError env.openStore
  let address ← initializeServerAddress env settings
  check (.exitCode (-3)) env.hostCreate
  return ⟨parsed, settings, address⟩

def startup : Except Halt Listening := do
  let (parsed, parser) ← (loadConfiguration F env).2
  listen F env parsed parser

def Halt.readsMissing : Halt → Bool
  | .noTable | .nullString _ => true
  | _ => false

structure Listening.Sound (env : Environment) (l : Listening) : Prop where
  parsed : l.parsed = true
  address : l.settings.address.isSome = true
  datastore : l.settings.datastore.isSome = true
  logs : l.settings.logs.isSome = true
  host : l.address.host = some ENET_HOST_ANY ∨
    ∃ host, env.setHost = some host ∧ l.address.host = some host

/-- The startup stops with an error before it reads what is missing, or it listens with all of its
settings. -/
def StartsSoundly (env : Environment) : Except Halt Listening → Prop
  | .error halt => halt.readsMissing = false
  | .ok l => l.Sound env

def Environment.Resolves (env : Environment) (address : String) : Prop :=
  cStr address = "*" ∨ env.setHost.isSome = true

def Readable (env : Environment) (parsed : Bool) (settings : Configuration) : Prop :=
  settings.logs.isSome = true ∧
    (env.rotatingLogger = true → env.registerSignalHandlers = true →
      settings.datastore.isSome = true ∧
        (env.openStore = true → ∃ address, settings.address = some address ∧
          (env.hostCreate = true → parsed = true ∧ env.Resolves address)))

def SoundInput (F : Parser τ) (env : Environment) : Prop :=
  ∀ serverschema configjson, env.serverSchema = some serverschema →
    env.serverJson = some configjson →
      let (parsed, parser) :=
        F.parse (cStr configjson) (F.parse (cStr serverschema) F.initial).2
      ∃ settings, F.getConfiguration parser = some settings ∧ Readable env parsed settings

variable {F env} {α : Type}

lemma startsSoundly_orHalt {halt : Halt} (h : halt.readsMissing = true) (o : Option α)
    (k : α → Except Halt Listening) :
    StartsSoundly env (orHalt halt o >>= k) ↔ ∃ a, o = some a ∧ StartsSoundly env (k a) := by
  cases o with
  | none =>
    have hmissing : ¬ halt.readsMissing = false := by simp [h]
    simpa [orHalt, bind, Except.bind, StartsSoundly] using hmissing
  | some a => simp [orHalt, bind, Except.bind]

lemma startsSoundly_check {halt : Halt} (h : halt.readsMissing = false) (ok : Bool)
    (k : Unit → Except Halt Listening) :
    StartsSoundly env (check halt ok >>= k) ↔ (ok = true → StartsSoundly env (k ())) := by
  cases ok with
  | false => simpa [check, bind, Except.bind, StartsSoundly] using h
  | true => simp [check, bind, Except.bind]

lemma startsSoundly_initializeServerAddress (settings : Configuration)
    (k : ENetAddress → Except Halt Listening) :
    StartsSoundly env (initializeServerAddress env settings >>= k) ↔
      ∃ address, settings.address = some address ∧ StartsSoundly env
        (k ⟨if cStr address = "*" then some ENET_HOST_ANY else env.setHost, settings.port⟩) := by
  rw [initializeServerAddress, bind_assoc, startsSoundly_orHalt rfl]
  refine exists_congr fun address => and_congr_right fun _ => ?_
  split_ifs <;> rfl

lemma sound_iff {parsed : Bool} {settings : Configuration} {logs datastore address : String}
    (hlogs : settings.logs = some logs) (hdatastore : settings.datastore = some datastore)
    (haddress : settings.address = some address) :
    Listening.Sound env ⟨parsed, settings,
        ⟨if cStr address = "*" then some ENET_HOST_ANY else env.setHost, settings.port⟩⟩ ↔
      parsed = true ∧ env.Resolves address := by
  constructor
  · intro h
    refine ⟨h.parsed, ?_⟩
    by_cases hany : cStr address = "*"
    · exact .inl hany
    · have hhost := h.host
      rw [if_neg hany] at hhost
      rcases hhost with hhost | ⟨host, hhost, -⟩ <;>
        exact .inr (Option.isSome_of_eq_some hhost)
  · rintro ⟨hparsed, hresolves⟩
    refine ⟨hparsed, by simp [haddress], by simp [hdatastore], by simp [hlogs], ?_⟩
    by_cases hany : cStr address = "*"
    · exact .inl (if_pos hany)
    · obtain ⟨host, hhost⟩ := Option.isSome_iff_exists.mp (hresolves.resolve_left hany)
      exact .inr ⟨host, hhost, (if_neg hany).trans hhost⟩

lemma startsSoundly_listen_iff (parsed : Bool) (parser : τ) :
    StartsSoundly env (listen F env parsed parser) ↔
      ∃ settings, F.getConfiguration parser = some settings ∧ Readable env parsed settings := by
  rw [listen, startsSoundly_orHalt rfl]
  refine exists_congr fun settings => and_congr_right fun _ => ?_
  rw [startsSoundly_orHalt rfl, Readable, Option.isSome_iff_exists, exists_and_right.symm]
  refine exists_congr fun logs => and_congr_right fun hlogs => ?_
  rw [startsSoundly_check rfl, startsSoundly_check rfl, startsSoundly_orHalt rfl,
    Option.isSome_iff_exists, exists_and_right.symm]
  refine imp_congr_right fun _ => imp_congr_right fun _ =>
    exists_congr fun datastore => and_congr_right fun hdatastore => ?_
  rw [startsSoundly_check rfl, startsSoundly_initializeServerAddress]
  refine imp_congr_right fun _ => exists_congr fun address => and_congr_right fun haddress => ?_
  rw [startsSoundly_check rfl]
  exact imp_congr_right fun _ => sound_iff hlogs hdatastore haddress

theorem startsSoundly_iff (F : Parser τ) (env : Environment) :
    StartsSoundly env (startup F env) ↔ SoundInput F env := by
  simp only [SoundInput, startup, loadConfiguration]
  cases hschema : env.serverSchema with
  | none => simp [bind, Except.bind, StartsSoundly, Halt.readsMissing]
  | some serverschema =>
    cases hjson : env.serverJson with
    | none => split_ifs <;> simp [bind, Except.bind, StartsSoundly, Halt.readsMissing]
    | some configjson =>
      refine (startsSoundly_listen_iff _ _).trans ⟨?_, fun h => h serverschema configjson rfl rfl⟩
      rintro h _ _ ⟨⟩ ⟨⟩
      exact h

def emptyObjectParser : Parser (Option Configuration) where
  initial := none
  parse text builder :=
    if text = "\x7b\x7d" then (true, some ⟨none, 0, 0, none, none, 0⟩) else (true, builder)
  getConfiguration builder := builder
  generateText _ _ := ""

def emptyObjectConfigured : Environment where
  serverSchema := "namespace keron.server; table Configuration \x7b address:string; " ++
    "port:ushort; maxclients:uint; datastore:string; logs:string; concurrency:uint; \x7d " ++
    "root_type Configuration;"
  serverJson := "\x7b\x7d"
  saveFile := true
  rotatingLogger := true
  registerSignalHandlers := true
  openStore := true
  setHost := none
  hostCreate := true

lemma startup_emptyObject {serverschema : String} (hschema : env.serverSchema = some serverschema)
    (hjson : env.serverJson = some "\x7b\x7d") :
    startup emptyObjectParser env = .error (.nullString .logs) := by
  have htext : cStr "\x7b\x7d" = "\x7b\x7d" := by decide
  have hparse (builder : Option Configuration) :
      emptyObjectParser.parse (cStr "\x7b\x7d") builder =
        (true, some ⟨none, 0, 0, none, none, 0⟩) := by
    simp [emptyObjectParser, htext]
  simp only [startup, loadConfiguration, hschema, hjson, hparse]
  rfl

theorem empty_object_read :
    ¬ ∀ env, StartsSoundly env (startup emptyObjectParser env) := by
  rw [not_forall]
  refine ⟨emptyObjectConfigured, ?_⟩
  rw [startup_emptyObject rfl rfl]
  simp [StartsSoundly, Halt.readsMissing]

/-- `count`, where `hardware` is what `hardware_concurrency` returns. -/
def workerCount (concurrency hardware : BitVec 32) : BitVec 32 :=
  if concurrency ≠ 0 then concurrency else if 1 < hardware - 1 then hardware - 1 else 1

def spawn (count : BitVec 32) (workers : List Worker) : List Worker :=
  -- `while (count--)` tests the value before the decrement.
  if count = 0 then workers else spawn (count - 1) (workers ++ [.test])
termination_by count.toNat
decreasing_by bv_omega

structure WorkersSized (concurrency hardware : BitVec 32) (n : ℕ) : Prop where
  someone : 1 ≤ n
  configured : 0 < concurrency → n = concurrency.toNat
  automatic : concurrency = 0 → n ≤ max 1 hardware.toNat

lemma spawn_eq (count : BitVec 32) (workers : List Worker) :
    spawn count workers = workers ++ List.replicate count.toNat .test := by
  fun_induction spawn count workers with
  | case1 workers => simp
  | case2 count workers hcount ih =>
    have hsucc : count.toNat = (count - 1).toNat + 1 := by bv_omega
    rw [ih, hsucc, List.replicate_succ, List.append_assoc, List.singleton_append]

lemma length_spawn (count : BitVec 32) : (spawn count []).length = count.toNat := by
  simp [spawn_eq]

lemma workerCount_zero (hardware : BitVec 32) :
    (workerCount 0 hardware).toNat = max 1 (hardware - 1).toNat := by
  simp only [workerCount, ne_eq, not_true, if_false]
  split_ifs <;> bv_omega

theorem workersSized_iff (concurrency hardware : BitVec 32) :
    WorkersSized concurrency hardware (spawn (workerCount concurrency hardware) []).length ↔
      concurrency ≠ 0 ∨ hardware ≠ 0 := by
  rw [length_spawn]
  by_cases hc : concurrency = 0
  · subst hc
    rw [workerCount_zero]
    constructor
    · rintro ⟨-, -, hauto⟩
      refine .inr fun hh => ?_
      subst hh
      exact absurd (hauto rfl) (by decide)
    · intro h
      have hh := h.resolve_left (not_not.mpr rfl)
      refine ⟨le_max_left _ _, by simp, fun _ => max_le_max_left _ ?_⟩
      bv_omega
  · have hcount : workerCount concurrency hardware = concurrency := if_pos hc
    rw [hcount]
    exact ⟨fun _ => .inl hc, fun _ => ⟨by bv_omega, fun _ => rfl, fun h => absurd h hc⟩⟩

theorem unknown_hardware_oversized : ¬ ∀ concurrency hardware,
    WorkersSized concurrency hardware (spawn (workerCount concurrency hardware) []).length := by
  intro h
  have hauto := (h 0 0).automatic rfl
  rw [length_spawn, workerCount_zero] at hauto
  exact absurd hauto (by decide)

end Keron.Server
