import Keron.Client.Connexion

/-! The strings that name a server: what `connectTo` makes of each of them. -/

namespace Keron.Client

def decimal (numeral : List Char) : ℕ :=
  Nat.ofDigits 10 (numeral.reverse.map fun c => c.toNat - '0'.toNat)

structure Numeral (numeral : List Char) (value : ℕ) : Prop where
  ne_nil : numeral ≠ []
  digits : ∀ c ∈ numeral, c.isDigit = true
  value : decimal numeral = value

inductive ServerForm (server : String) : String → ℤ → Prop
  | bare : ':' ∉ server.toList → ServerForm server server 20336
  | withPort {ipServer numeral : List Char} {port : ℕ} :
      server.toList = ipServer ++ ':' :: numeral → ':' ∉ ipServer → Numeral numeral port →
      port ≤ 65535 → ServerForm server (String.ofList ipServer) port

structure ConnectsByForm (server : String) : Prop where
  reached : ∀ (s : ConnexionUtils) user enet ipServer port,
    .connect ipServer port 0 2 ∈ (s.connectTo server user enet).2 →
      ServerForm server ipServer port
  reaches : ∀ ipServer port, ServerForm server ipServer port →
    ∀ (s : ConnexionUtils) user enet, enet ≠ .initializeThrows →
      .connect ipServer port 0 2 ∈ (s.connectTo server user enet).2
  rejects : (∀ ipServer port, ¬ ServerForm server ipServer port) →
    ∀ (s : ConnexionUtils) user enet, (s.connectTo server user enet).2 = []

inductive SignedNumeral : List Char → ℤ → Prop
  | unsigned {numeral value} : Numeral numeral value → SignedNumeral numeral value
  | plus {numeral value} : Numeral numeral value → SignedNumeral ('+' :: numeral) value
  | minus {numeral value} : Numeral numeral value → SignedNumeral ('-' :: numeral) (-value)

/-- A number of 32 bits, with white space around it and null characters at the end. -/
inductive Int32Form : List Char → ℤ → Prop
  | mk {before signed after nulls value} : (∀ c ∈ before, Int32.isWhite c = true) →
      SignedNumeral signed value → (∀ c ∈ after, Int32.isWhite c = true) →
      (∀ c ∈ nulls, Int32.isNull c = true) → -2 ^ 31 ≤ value → value < 2 ^ 31 →
      Int32Form (before ++ (signed ++ (after ++ nulls))) value

/-- A numeral of 16 bits is all that follows the first colon, or what stands before the next one is
no number of 32 bits. -/
def PortExact (server : String) : Prop :=
  ∀ ipServer rest, server.toList = ipServer ++ ':' :: rest → ':' ∉ ipServer →
    (∃ port ≤ 65535, Numeral rest port) ∨
      ∀ value, ¬ Int32Form (rest.takeWhile (· ≠ ':')) value

section Parsing

lemma foldl_decimal (numeral : List Char) :
    numeral.foldl (fun v c => 10 * v + (c.toNat - '0'.toNat)) 0 = decimal numeral := by
  induction numeral using List.reverseRecOn with
  | nil => rfl
  | append_singleton numeral c ih =>
    rw [List.foldl_append, ih, decimal, decimal, List.reverse_append, List.reverse_singleton,
      List.singleton_append, List.map_cons, Nat.ofDigits_cons]
    exact Nat.add_comm _ _

lemma digits_eq_some_iff {numeral : List Char} {value : ℕ} :
    Int32.digits numeral = some value ↔ Numeral numeral value := by
  rw [Int32.digits, foldl_decimal, Option.ite_none_right_eq_some, Option.some.injEq,
    List.all_eq_true]
  exact ⟨fun ⟨⟨hne, hdigits⟩, hvalue⟩ => ⟨hne, hdigits, hvalue⟩,
    fun h => ⟨⟨h.ne_nil, h.digits⟩, h.value⟩⟩

lemma digit_of_numeral {c : Char} {rest : List Char} {value : ℕ} (h : Numeral (c :: rest) value) :
    c ≠ '-' ∧ c ≠ '+' := by
  have hdigit := h.digits c List.mem_cons_self
  constructor <;>
  · rintro rfl
    exact absurd hdigit (by decide)

lemma signed_eq_some_iff {s : List Char} {value : ℤ} :
    Int32.signed s = some value ↔ SignedNumeral s value := by
  constructor
  · intro h
    unfold Int32.signed at h
    split at h <;> obtain ⟨v, hv, rfl⟩ := Option.map_eq_some_iff.mp h
    · exact .minus (digits_eq_some_iff.mp hv)
    · exact .plus (digits_eq_some_iff.mp hv)
    · exact .unsigned (digits_eq_some_iff.mp hv)
  · intro h
    cases h with
    | unsigned h =>
      obtain ⟨c, rest, rfl⟩ := List.exists_cons_of_ne_nil h.ne_nil
      obtain ⟨hminus, hplus⟩ := digit_of_numeral h
      rw [Int32.signed, digits_eq_some_iff.mpr h, Option.map_some]
      · simpa using hminus
      · simpa using hplus
    | plus h => rw [Int32.signed, digits_eq_some_iff.mpr h, Option.map_some]
    | minus h => rw [Int32.signed, digits_eq_some_iff.mpr h, Option.map_some]

lemma isWhite_iff {c : Char} :
    Int32.isWhite c = true ↔ c.toNat = 32 ∨ 9 ≤ c.toNat ∧ c.toNat ≤ 13 := by
  have hblank : c.toNat = 32 ↔ c = ' ' := Char.toNat_inj (d := ' ')
  simp [Int32.isWhite, hblank]

lemma isNull_iff {c : Char} : Int32.isNull c = true ↔ c.toNat = 0 := decide_eq_true_iff

lemma SignedNumeral.kept {s : List Char} {value : ℤ} (h : SignedNumeral s value) :
    s ≠ [] ∧ ∀ c ∈ s, Int32.isWhite c = false ∧ Int32.isNull c = false := by
  have hdigits {numeral : List Char} {value : ℕ} (h : Numeral numeral value) :
      ∀ c ∈ numeral, Int32.isWhite c = false ∧ Int32.isNull c = false := by
    intro c hc
    have hdigit : 48 ≤ c.toNat := (Char.isDigit_iff_toNat.mp (h.digits c hc)).1
    rw [← Bool.not_eq_true, isWhite_iff, ← Bool.not_eq_true, isNull_iff]
    omega
  cases h with
  | unsigned h => exact ⟨h.ne_nil, hdigits h⟩
  | plus h => exact ⟨by simp, List.forall_mem_cons.mpr ⟨by decide, hdigits h⟩⟩
  | minus h => exact ⟨by simp, List.forall_mem_cons.mpr ⟨by decide, hdigits h⟩⟩

lemma rdropWhile_append_of_pos {p : Char → Bool} {l r : List Char} (hl : ∀ c ∈ l, p c = false)
    (hr : ∀ c ∈ r, p c = true) : (l ++ r).rdropWhile p = l := by
  rw [List.rdropWhile, List.reverse_append, List.dropWhile_append_of_pos (by simpa using hr),
    ← List.rdropWhile, List.rdropWhile_eq_self_iff]
  intro hne
  simp [hl _ (List.getLast_mem hne)]

lemma trim_eq {before signed after nulls : List Char} {value : ℤ}
    (hbefore : ∀ c ∈ before, Int32.isWhite c = true) (hs : SignedNumeral signed value)
    (hafter : ∀ c ∈ after, Int32.isWhite c = true) (hnulls : ∀ c ∈ nulls, Int32.isNull c = true) :
    Int32.trim (before ++ (signed ++ (after ++ nulls))) = signed := by
  obtain ⟨hne, hkept⟩ := hs.kept
  obtain ⟨c, rest, rfl⟩ := List.exists_cons_of_ne_nil hne
  have hwhite : ∀ d ∈ after, Int32.isNull d = false := by
    intro d hd
    have hd' := isWhite_iff.mp (hafter d hd)
    rw [← Bool.not_eq_true, isNull_iff]
    omega
  rw [Int32.trim, List.dropWhile_append_of_pos hbefore, List.cons_append,
    List.dropWhile_cons_of_neg (by simp [(hkept c List.mem_cons_self).1]), ← List.cons_append,
    ← List.append_assoc, rdropWhile_append_of_pos _ hnulls,
    rdropWhile_append_of_pos (fun d hd => (hkept d hd).1) hafter]
  intro d hd
  rcases List.mem_append.mp hd with hd | hd
  · exact (hkept d hd).2
  · exact hwhite d hd

lemma exists_trim (s : List Char) : ∃ before after nulls,
    s = before ++ (Int32.trim s ++ (after ++ nulls)) ∧ (∀ c ∈ before, Int32.isWhite c = true) ∧
      (∀ c ∈ after, Int32.isWhite c = true) ∧ ∀ c ∈ nulls, Int32.isNull c = true := by
  refine ⟨s.takeWhile Int32.isWhite,
    ((s.dropWhile Int32.isWhite).rdropWhile Int32.isNull).rtakeWhile Int32.isWhite,
    (s.dropWhile Int32.isWhite).rtakeWhile Int32.isNull, ?_, fun c hc => List.mem_takeWhile_imp hc,
    fun c hc => List.mem_rtakeWhile_imp hc, fun c hc => List.mem_rtakeWhile_imp hc⟩
  rw [Int32.trim, ← List.append_assoc (List.rdropWhile _ _), List.rdropWhile_append_rtakeWhile,
    List.rdropWhile_append_rtakeWhile, List.takeWhile_append_dropWhile]

lemma parse_eq_some_iff {s : List Char} {value : ℤ} :
    Int32.parse s = some value ↔ Int32Form s value := by
  constructor
  · intro h
    obtain ⟨v, hv, hrange⟩ := Option.bind_eq_some_iff.mp h
    obtain ⟨⟨hlow, hhigh⟩, hvalue⟩ := Option.ite_none_right_eq_some.mp hrange
    obtain rfl := Option.some.inj hvalue
    obtain ⟨before, after, nulls, hs, hbefore, hafter, hnulls⟩ := exists_trim s
    rw [hs]
    exact .mk hbefore (signed_eq_some_iff.mp hv) hafter hnulls hlow hhigh
  · rintro ⟨hbefore, hs, hafter, hnulls, hlow, hhigh⟩
    rw [Int32.parse, trim_eq hbefore hs hafter hnulls, signed_eq_some_iff.mpr hs]
    exact if_pos ⟨hlow, hhigh⟩

lemma int32Form_of_numeral {numeral : List Char} {port : ℕ} (h : Numeral numeral port)
    (hport : port ≤ 65535) : Int32Form numeral port := by
  have hform : Int32Form ([] ++ (numeral ++ ([] ++ []))) port :=
    .mk (by simp) (.unsigned h) (by simp) (by simp) (by omega) (by omega)
  simpa using hform

end Parsing

lemma connect_mem_iff (s : ConnexionUtils) (server user : String) (enet : Attempt)
    (ipServer : String) (port : ℤ) :
    .connect ipServer port 0 2 ∈ (s.connectTo server user enet).2 ↔
      parseServer server = some (ipServer, port) ∧ enet ≠ .initializeThrows := by
  cases hp : parseServer server with
  | none => simp [ConnexionUtils.connectTo, hp]
  | some address =>
    rcases enet with _ | _ | ⟨peer, _ | _ | ev⟩ <;>
      simp [ConnexionUtils.connectTo, hp, Prod.ext_iff, eq_comm]

lemma calls_eq_nil_iff (s : ConnexionUtils) (server user : String) (enet : Attempt) :
    (s.connectTo server user enet).2 = [] ↔ parseServer server = none := by
  cases hp : parseServer server with
  | none => simp [ConnexionUtils.connectTo, hp]
  | some address =>
    rcases enet with _ | _ | ⟨peer, _ | _ | ev⟩ <;> simp [ConnexionUtils.connectTo, hp]

lemma connectsByForm_iff (server : String) : ConnectsByForm server ↔
    (∀ ipServer port, parseServer server = some (ipServer, port) →
      ServerForm server ipServer port) ∧
    ∀ ipServer port, ServerForm server ipServer port →
      parseServer server = some (ipServer, port) := by
  constructor
  · intro h
    refine ⟨fun ipServer port hp => ?_, fun ipServer port hform => ?_⟩
    · exact h.reached .initial "" .connectThrows ipServer port
        ((connect_mem_iff _ _ _ _ _ _).mpr ⟨hp, by simp⟩)
    · exact ((connect_mem_iff _ _ _ _ _ _).mp
        (h.reaches ipServer port hform .initial "" .connectThrows (by simp))).1
  · rintro ⟨hsound, hcomplete⟩
    refine ⟨fun s user enet ipServer port hc => ?_, fun ipServer port hform s user enet he => ?_,
      fun hnone s user enet => ?_⟩
    · exact hsound ipServer port ((connect_mem_iff _ _ _ _ _ _).mp hc).1
    · exact (connect_mem_iff _ _ _ _ _ _).mpr ⟨hcomplete ipServer port hform, he⟩
    · rw [calls_eq_nil_iff, Option.eq_none_iff_forall_not_mem]
      exact fun address hp => hnone address.1 address.2 (hsound _ _ hp)

lemma Numeral.colon_free {numeral : List Char} {value : ℕ} (h : Numeral numeral value) :
    ':' ∉ numeral := by
  intro hmem
  have hcolon := h.digits ':' hmem
  exact absurd hcolon (by decide)

lemma takeWhile_of_colon_free {s : List Char} (h : ':' ∉ s) : s.takeWhile (· ≠ ':') = s := by
  rw [List.takeWhile_eq_self_iff]
  intro c hc
  simpa using ne_of_mem_of_not_mem hc h

lemma head_splitOn (rest : List Char) :
    (rest.splitOn ':').getD 0 [] = rest.takeWhile (· ≠ ':') := by
  by_cases hmem : ':' ∈ rest
  · obtain ⟨l, r, rfl, hl⟩ := List.eq_append_cons_of_mem hmem
    have hall : ∀ c ∈ l, decide (c ≠ ':') = true := fun c hc => by
      simpa using ne_of_mem_of_not_mem hc hl
    rw [List.splitOn_append_cons_self_of_not_mem hl, List.takeWhile_append_of_pos hall]
    simp
  · rw [List.splitOn_eq_singleton hmem, takeWhile_of_colon_free hmem]
    rfl

section Colon

variable {server : String} {ipServer rest : List Char}

lemma parseServer_of_colon (h : server.toList = ipServer ++ ':' :: rest) (hhost : ':' ∉ ipServer) :
    parseServer server =
      (Int32.parse (rest.takeWhile (· ≠ ':'))).map (String.ofList ipServer, ·) := by
  have hsplit := List.splitOn_append_cons_self_of_not_mem hhost rest
  have hmem : ':' ∈ server.toList := by simp [h]
  rw [parseServer, if_pos hmem, ← head_splitOn]
  simp [h, hsplit]

lemma parts_unique (h : server.toList = ipServer ++ ':' :: rest) (hhost : ':' ∉ ipServer)
    {ipServer' rest' : List Char} (h' : server.toList = ipServer' ++ ':' :: rest')
    (hhost' : ':' ∉ ipServer') : ipServer' = ipServer ∧ rest' = rest := by
  have hsplit := congrArg (List.splitOn ':') (h.symm.trans h')
  rw [List.splitOn_append_cons_self_of_not_mem hhost,
    List.splitOn_append_cons_self_of_not_mem hhost'] at hsplit
  obtain rfl := (List.cons.inj hsplit).1
  exact ⟨rfl, by simpa using h'.symm.trans h⟩

lemma serverForm_iff (h : server.toList = ipServer ++ ':' :: rest) (hhost : ':' ∉ ipServer)
    (a : String) (p : ℤ) : ServerForm server a p ↔
      a = String.ofList ipServer ∧ ∃ port : ℕ, p = port ∧ Numeral rest port ∧ port ≤ 65535 := by
  constructor
  · rintro (hbare | ⟨hs, hhost', hnumeral, hport⟩)
    · exact absurd (by simp [h]) hbare
    · obtain ⟨rfl, rfl⟩ := parts_unique h hhost hs hhost'
      exact ⟨rfl, _, rfl, hnumeral, hport⟩
  · rintro ⟨rfl, port, rfl, hnumeral, hport⟩
    exact .withPort h hhost hnumeral hport

lemma portExact_iff (h : server.toList = ipServer ++ ':' :: rest) (hhost : ':' ∉ ipServer) :
    PortExact server ↔ (∃ port ≤ 65535, Numeral rest port) ∨
      ∀ value, ¬ Int32Form (rest.takeWhile (· ≠ ':')) value := by
  constructor
  · exact fun hexact => hexact ipServer rest h hhost
  · intro hport ipServer' rest' h' hhost'
    obtain ⟨rfl, rfl⟩ := parts_unique h hhost h' hhost'
    exact hport

lemma exact_of_colon (h : server.toList = ipServer ++ ':' :: rest) (hhost : ':' ∉ ipServer) :
    ((∀ a p, parseServer server = some (a, p) → ServerForm server a p) ∧
      ∀ a p, ServerForm server a p → parseServer server = some (a, p)) ↔ PortExact server := by
  have hparse := parseServer_of_colon h hhost
  rw [portExact_iff h hhost]
  constructor
  · rintro ⟨hsound, -⟩
    refine or_iff_not_imp_right.mpr fun hform => ?_
    obtain ⟨value, hvalue⟩ := not_forall_not.mp hform
    rw [parse_eq_some_iff.mpr hvalue, Option.map_some] at hparse
    obtain ⟨-, port, -, hnumeral, hport⟩ := (serverForm_iff h hhost _ _).mp (hsound _ _ hparse)
    exact ⟨port, hport, hnumeral⟩
  · rintro (⟨port, hport, hnumeral⟩ | hnone)
    · have hvalue := parse_eq_some_iff.mpr (int32Form_of_numeral hnumeral hport)
      rw [takeWhile_of_colon_free hnumeral.colon_free, hvalue, Option.map_some] at hparse
      rw [hparse]
      refine ⟨fun a p hs => ?_, fun a p hform => ?_⟩
      · obtain ⟨rfl, rfl⟩ := Prod.mk.inj (Option.some.inj hs)
        exact .withPort h hhost hnumeral hport
      · obtain ⟨rfl, port', rfl, hnumeral', -⟩ := (serverForm_iff h hhost _ _).mp hform
        rw [hnumeral.value.symm.trans hnumeral'.value]
    · have hrejected : parseServer server = none := by
        rw [hparse, Option.map_eq_none_iff]
        exact Option.eq_none_iff_forall_ne_some.mpr fun value hv =>
          hnone value (parse_eq_some_iff.mp hv)
      rw [hrejected]
      refine ⟨by simp, fun a p hform => ?_⟩
      obtain ⟨-, port, -, hnumeral, hport⟩ := (serverForm_iff h hhost _ _).mp hform
      refine absurd (int32Form_of_numeral hnumeral hport) ?_
      rw [← takeWhile_of_colon_free hnumeral.colon_free]
      exact hnone port

end Colon

theorem connectsByForm_iff_portExact (server : String) :
    ConnectsByForm server ↔ PortExact server := by
  rw [connectsByForm_iff]
  by_cases hmem : ':' ∈ server.toList
  · obtain ⟨ipServer, rest, h, hhost⟩ := List.eq_append_cons_of_mem hmem
    exact exact_of_colon h hhost
  · have hparse : parseServer server = some (server, 20336) := if_neg hmem
    refine iff_of_true ⟨fun a p hs => ?_, fun a p hform => ?_⟩ fun _ _ h => absurd ?_ hmem
    · rw [hparse] at hs
      obtain ⟨rfl, rfl⟩ := Prod.mk.inj (Option.some.inj hs)
      exact .bare hmem
    · rcases hform with - | ⟨hs, -⟩
      · exact hparse
      · exact absurd (by simp [hs]) hmem
    · simp [h]

theorem second_colon_accepted : ¬ ∀ server, ConnectsByForm server := by
  intro h
  have hform := (h "localhost:1:2").reached .initial "bob" .connectThrows "localhost" 1 (by decide)
  have hcolon : "localhost:1:2".toList = "localhost".toList ++ ':' :: "1:2".toList := by decide
  obtain ⟨-, port, -, hnumeral, -⟩ := (serverForm_iff hcolon (by decide) _ _).mp hform
  exact hnumeral.colon_free (by decide)

end Keron.Client
