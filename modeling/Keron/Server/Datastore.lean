import Keron.Library.LittleEndian
import Keron.Library.OrderedStores
import Keron.Server.Packets

/-! The connection counts kept in the LMDB datastore (`store.h` and the CONNECT branch of
`server.cpp`). -/

namespace Keron.Server

open Keron.Schema.NetMessages LittleEndian OrderedStores

abbrev Datastore := OrderedStore (List Byte) (List Byte)

def makeVal (size v : ℕ) : List Byte := littleEndian size v

/-- `cursor.get(key, value, MDB_FIRST)`: whether there is a record, and what `key` and `value` are
afterwards. -/
def cursorGetFirst (s : Datastore) (key value : List Byte) : Bool × List Byte × List Byte :=
  match s.first? with
  | some (k, v) => (true, k, v)
  | none => (false, key, value)

def connect (data : BitVec 32) (s : Datastore) : Datastore :=
  if data ≠ 0 then
    let clientID := data
    let count : Byte := 0
    let key := makeVal 4 clientID.toNat
    let value := makeVal 1 count.val
    let (found, key, value) := cursorGetFirst s key value
    let count := if found then value.headD 0 else count
    let count := count + 1
    s.put key (makeVal 1 count.val)
  else s

def datastoreAfter (data : List (BitVec 32)) : Datastore :=
  data.foldl (fun s d => connect d s) .empty

def record (s : Datastore) (c : BitVec 32) : Option (List Byte) := s.find? (makeVal 4 c.toNat)

def clients (data : List (BitVec 32)) : List (BitVec 32) := data.filter (· ≠ 0)

lemma makeVal_injective {c c' : BitVec 32} (h : makeVal 4 c.toNat = makeVal 4 c'.toNat) : c = c' :=
  BitVec.eq_of_toNat_eq (littleEndian_injective c.isLt c'.isLt h)

lemma clients_snoc_zero (data : List (BitVec 32)) : clients (data ++ [0]) = clients data := by
  simp [clients]

lemma clients_snoc {c : BitVec 32} (hc : c ≠ 0) (data : List (BitVec 32)) :
    clients (data ++ [c]) = clients data ++ [c] := by
  rw [clients, List.filter_append, List.filter_singleton, decide_eq_true hc, cond_true, clients]

lemma datastoreAfter_snoc (data : List (BitVec 32)) (d : BitVec 32) :
    datastoreAfter (data ++ [d]) = connect d (datastoreAfter data) := by
  simp [datastoreAfter]

lemma connect_zero (s : Datastore) : connect 0 s = s := rfl

lemma connect_none {c : BitVec 32} (hc : c ≠ 0) {s : Datastore} (h : s.records = []) :
    (connect c s).records = [(makeVal 4 c.toNat, makeVal 1 1)] := by
  have hfirst : s.first? = none := by simp [OrderedStore.first?, h]
  simp only [connect, hc, ne_eq, not_false_eq_true, if_true, cursorGetFirst, hfirst]
  simp [OrderedStore.put, h, insertRecord]

lemma connect_first {c : BitVec 32} (hc : c ≠ 0) {s : Datastore} {k : List Byte} {n : ℕ}
    {rest : List (List Byte × List Byte)} (h : s.records = (k, makeVal 1 n) :: rest) :
    (connect c s).records = (k, makeVal 1 (n + 1)) :: rest := by
  have hfirst : s.first? = some (k, makeVal 1 n) := by simp [OrderedStore.first?, h]
  have hval : makeVal 1 ((makeVal 1 n).headD 0 + 1).val = makeVal 1 (n + 1) := by
    simp [makeVal, littleEndian, Fin.ext_iff, Fin.val_add]
  simp only [connect, hc, ne_eq, not_false_eq_true, if_true, cursorGetFirst, hfirst, hval]
  exact OrderedStore.records_put_first h _

lemma records_datastoreAfter (data : List (BitVec 32)) :
    (datastoreAfter data).records =
      match clients data with
      | [] => []
      | c :: rest => [(makeVal 4 c.toNat, makeVal 1 (rest.length + 1))] := by
  induction data using List.reverseRecOn with
  | nil => rfl
  | append_singleton data d ih =>
    rw [datastoreAfter_snoc]
    rcases eq_or_ne d 0 with rfl | hd
    · rw [connect_zero, clients_snoc_zero, ih]
    · rw [clients_snoc hd]
      cases hc : clients data with
      | nil =>
        rw [hc] at ih
        simpa using connect_none hd ih
      | cons c rest =>
        rw [hc] at ih
        simpa using connect_first hd ih

lemma record_of_records {s : Datastore} {c x : BitVec 32} {v : List Byte}
    (h : s.records = [(makeVal 4 x.toNat, v)]) :
    record s c = if x = c then some v else none := by
  have hkey : makeVal 4 x.toNat = makeVal 4 c.toNat ↔ x = c :=
    ⟨makeVal_injective, fun h => by rw [h]⟩
  simp only [record, OrderedStore.find?, h, List.find?_cons, List.find?_nil, hkey]
  by_cases hx : x = c <;> simp [hx]

lemma record_datastoreAfter (data : List (BitVec 32)) (c : BitVec 32) :
    record (datastoreAfter data) c =
      if (clients data).head? = some c then some (makeVal 1 (clients data).length) else none := by
  have hr := records_datastoreAfter data
  cases hc : clients data with
  | nil =>
    rw [hc] at hr
    simp [record, OrderedStore.find?, hr]
  | cons x rest =>
    rw [hc] at hr
    rw [record_of_records hr]
    simp

def CountsConnections (data : List (BitVec 32)) (c : BitVec 32) : Prop :=
  ((record (datastoreAfter data) c).isSome ↔ c ∈ data) ∧
    ∀ v, record (datastoreAfter data) c = some v → v = makeVal 1 (data.count c)

def LeavesOthers (data : List (BitVec 32)) (c : BitVec 32) : Prop :=
  ∀ c', c' ≠ c → record (datastoreAfter (data ++ [c])) c' = record (datastoreAfter data) c'

def others (data : List (BitVec 32)) (c : BitVec 32) : ℕ := (clients data).countP (· ≠ c)

lemma count_add_others {c : BitVec 32} (hc : c ≠ 0) (data : List (BitVec 32)) :
    data.count c + others data c = (clients data).length := by
  have hcount : (clients data).count c = data.count c := List.count_filter (decide_eq_true hc)
  rw [← hcount, List.length_eq_countP_add_countP (· == c), List.count, others]
  simp

lemma mem_clients {c : BitVec 32} (hc : c ≠ 0) (data : List (BitVec 32)) :
    c ∈ clients data ↔ c ∈ data := by
  rw [clients, List.mem_filter, decide_eq_true hc]
  simp

lemma makeVal_one_eq_iff {m n : ℕ} (hm : m ≤ 255) :
    makeVal 1 n = makeVal 1 m ↔ n % 256 = m := by
  simp only [makeVal, littleEndian, List.cons.injEq, and_true, Fin.ext_iff, Fin.val_ofNat]
  omega

lemma countsConnections_iff {data : List (BitVec 32)} {c : BitVec 32} (hc : c ≠ 0)
    (hcount : data.count c ≤ 255) :
    CountsConnections data c ↔
      c ∉ data ∨ ((clients data).head? = some c ∧ 256 ∣ others data c) := by
  have hlen := count_add_others hc data
  simp only [CountsConnections, record_datastoreAfter]
  by_cases hfirst : (clients data).head? = some c
  · have hmem : c ∈ data := (mem_clients hc data).mp (List.mem_of_mem_head? hfirst)
    simp only [hfirst, if_true, Option.isSome_some, hmem, Option.some.injEq,
      forall_eq', not_true_eq_false, false_or, true_and, makeVal_one_eq_iff hcount]
    omega
  · simp [hfirst]

lemma leavesOthers_iff {data : List (BitVec 32)} {c : BitVec 32} (hc : c ≠ 0) :
    LeavesOthers data c ↔ clients data = [] ∨ (clients data).head? = some c := by
  simp only [LeavesOthers, record_datastoreAfter, clients_snoc hc]
  cases hcl : clients data with
  | nil => simp +contextual [eq_comm]
  | cons x rest =>
    have hchanged : makeVal 1 (x :: rest ++ [c]).length ≠ makeVal 1 (x :: rest).length := by
      intro h
      simp only [makeVal, littleEndian, List.cons.injEq, and_true, Fin.ext_iff, Fin.val_ofNat,
        List.length_append, List.length_singleton] at h
      omega
    simp only [List.cons_append, List.head?_cons, Option.some.injEq, reduceCtorEq, false_or]
    constructor
    · intro h
      by_contra hx
      have hx' := h x hx
      simp only [if_true, Option.some.injEq] at hx'
      exact hchanged hx'
    · rintro rfl c' hne
      simp [hne.symm]

theorem connection_counts_iff (data : List (BitVec 32)) (c : BitVec 32) (hc : c ≠ 0)
    (hcount : data.count c ≤ 255) :
    (CountsConnections data c ↔
      c ∉ data ∨ ((clients data).head? = some c ∧ 256 ∣ others data c)) ∧
    (LeavesOthers data c ↔ clients data = [] ∨ (clients data).head? = some c) :=
  ⟨countsConnections_iff hc hcount, leavesOthers_iff hc⟩

theorem connection_counts_of_one_client :
    CountsConnections [7, 0, 7] 7 ∧ LeavesOthers [7, 0, 7] 7 :=
  have h := connection_counts_iff [7, 0, 7] 7 (by decide) (by decide)
  ⟨h.1.mpr (.inr ⟨by decide, by decide⟩), h.2.mpr (.inr (by decide))⟩

theorem second_client_not_counted :
    ¬ ∀ (data : List (BitVec 32)) (c : BitVec 32), c ≠ 0 → data.count c ≤ 255 →
      CountsConnections data c := by
  intro h
  have hsecond := (h [7, 9] 9 (by decide) (by decide)).1.mpr (by decide)
  rw [record_datastoreAfter] at hsecond
  exact absurd hsecond (by decide)

end Keron.Server
