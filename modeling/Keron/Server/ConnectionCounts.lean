import Keron.Server.Traces

/-! How the stored count of a client grows over the life of the server. -/

namespace Keron.Server

open Keron.Schema.NetMessages LittleEndian OrderedStores TraceMachines

variable {n : ℕ} {C : Codec} {spurious : Bool}

def writtenKey (data : BitVec 32) (s : Datastore) : List Byte :=
  (cursorGetFirst s (makeVal 4 data.toNat) (makeVal 1 0)).2.1

def storedCount (s : Datastore) (key : List Byte) : ℕ :=
  ((s.find? key).elim 0 fun value => value.headD 0).val

def CountGrows (s : Datastore) (data : BitVec 32) : Prop :=
  storedCount s (writtenKey data s) < storedCount (connect data s) (writtenKey data s)

/-- The connections in `data₀` are those of the server's earlier runs. -/
def CommitsMore (data₀ : List (BitVec 32)) (past : List (Obs n)) : Obs n → Prop
  | .event (.connect _ data) =>
    data ≠ 0 → CountGrows (datastoreAfter (data₀ ++ connections (events past))) data
  | _ => True

def identified (tr : List (Obs n)) : ℕ := (clients (connections (events tr))).length

lemma storedCount_of_records {s : Datastore} {key : List Byte} {count : ℕ}
    (h : s.records = [(key, makeVal 1 count)]) : storedCount s key = count % 256 := by
  simp [storedCount, OrderedStore.find?, h, makeVal, littleEndian]

lemma countGrows_iff (data : List (BitVec 32)) {c : BitVec 32} (hc : c ≠ 0) :
    CountGrows (datastoreAfter data) c ↔ ¬ 256 ∣ (clients data).length + 1 := by
  have hbefore := records_datastoreAfter data
  have hafter := records_datastoreAfter (data ++ [c])
  rw [clients_snoc hc, datastoreAfter_snoc] at hafter
  cases hcl : clients data with
  | nil =>
    rw [hcl] at hbefore hafter
    have hkey : writtenKey c (datastoreAfter data) = makeVal 4 c.toNat := by
      simp [writtenKey, cursorGetFirst, OrderedStore.first?, hbefore]
    have hnone : storedCount (datastoreAfter data) (makeVal 4 c.toNat) = 0 := by
      simp [storedCount, OrderedStore.find?, hbefore]
    rw [CountGrows, hkey, hnone, storedCount_of_records hafter]
    simp
  | cons x rest =>
    rw [hcl] at hbefore hafter
    have hkey : writtenKey c (datastoreAfter data) = makeVal 4 x.toNat := by
      simp [writtenKey, cursorGetFirst, OrderedStore.first?, hbefore]
    simp only [List.cons_append, List.length_append, List.length_singleton] at hafter
    rw [CountGrows, hkey, storedCount_of_records hbefore, storedCount_of_records hafter,
      List.length_cons]
    omega

lemma identified_connect (tr : List (Obs n)) (p : Slot) {c : BitVec 32} (hc : c ≠ 0) :
    identified (tr ++ [.event (.connect p c)]) = identified tr + 1 := by
  have happend : connections (events (tr ++ [.event (.connect p c)])) =
      connections (events tr) ++ [c] := by
    simp [connections]
  rw [identified, happend, clients_snoc hc, List.length_append, List.length_singleton, identified]

variable (data₀ : List (BitVec 32))

lemma commit_or_silent (tr : List (Obs n)) (o : Obs n) :
    (∃ p c, c ≠ 0 ∧ o = .event (.connect p c)) ∨
      CommitsMore data₀ tr o ∧ identified (tr ++ [o]) = identified tr := by
  rcases o with (⟨p, c⟩ | _ | _) | _ | _ | _ | _ | _ | _
  case event.connect =>
    rcases eq_or_ne c 0 with rfl | hc
    · exact .inr ⟨fun h => absurd rfl h, by simp [identified, connections, clients]⟩
    · exact .inl ⟨p, c, hc, rfl⟩
  all_goals exact .inr ⟨trivial, by simp [identified, connections]⟩

lemma justified_commitsMore (tr : List (Obs n)) :
    Justified (CommitsMore data₀) tr ↔ (clients data₀).length % 256 + identified tr < 256 := by
  induction tr using List.reverseRecOn with
  | nil =>
    have hmod : (clients data₀).length % 256 < 256 := Nat.mod_lt _ (by norm_num)
    simpa [identified, connections, clients] using hmod
  | append_singleton tr o ih =>
    rw [justified_snoc, ih]
    rcases commit_or_silent data₀ tr o with ⟨p, c, hc, rfl⟩ | ⟨hmore, hsame⟩
    · have hlength : (clients (data₀ ++ connections (events tr))).length =
          (clients data₀).length + identified tr := by
        rw [clients, List.filter_append, List.length_append, identified, clients, clients]
      have hgrows : CommitsMore data₀ tr (.event (.connect p c)) ↔
          ¬ 256 ∣ (clients data₀).length + identified tr + 1 := by
        rw [← hlength]
        exact (forall_prop_of_true hc).trans (countGrows_iff _ hc)
      rw [hgrows, identified_connect tr p hc]
      omega
    · rw [hsame]
      exact and_iff_left hmore

theorem commitsMore_iff {events₀ : List Event} {acts : List (Action n)} {tr : List (Obs n)}
    {s : State n}
    (h : (server n C spurious).Run (.initial n (datastoreAfter data₀) events₀) acts tr s) :
    s.datastore = datastoreAfter (data₀ ++ connections (events tr)) ∧
      (Justified (CommitsMore data₀) tr ↔
        (clients data₀).length % 256 + identified tr < 256) := by
  refine ⟨?_, justified_commitsMore data₀ tr⟩
  rw [datastore_run h, datastoreAfter, datastoreAfter, List.foldl_append]

theorem commitsMore_of_restart : ∃ tr s,
    (server 1 wire false).Run (.initial 1 (datastoreAfter [7]) [.connect 0 9])
      [.main .go, .main .event, .main .go] tr s ∧ identified tr = 1 ∧
        s.datastore = datastoreAfter [7, 9] ∧ Justified (CommitsMore [7]) tr := by
  obtain ⟨tr, s, hr, htr⟩ : ∃ tr s,
      (server 1 wire false).Run (.initial 1 (datastoreAfter [7]) [.connect 0 9])
        [.main .go, .main .event, .main .go] tr s ∧ tr = [.event (.connect 0 9)] :=
    Machine.exists_run_of_exec (by decide +kernel)
  obtain ⟨hstore, hmore⟩ := commitsMore_iff [7] hr
  subst htr
  exact ⟨_, s, hr, rfl, hstore, hmore.mpr (by decide)⟩

theorem count_falls_back : ¬ ∀ (n : ℕ) (C : Codec) (spurious : Bool) (data₀ : List (BitVec 32))
    (events₀ : List Event) (acts : List (Action n)) (tr : List (Obs n)) (s : State n),
    (server n C spurious).Run (.initial n (datastoreAfter data₀) events₀) acts tr s →
      Justified (CommitsMore data₀) tr := by
  intro h
  obtain ⟨tr, s, hr, htr⟩ : ∃ tr s, (server 1 wire false).Run
      (.initial 1 (datastoreAfter (List.replicate 255 7)) [.connect 0 7])
        [.main .go, .main .event, .main .go] tr s ∧ tr = [.event (.connect 0 7)] :=
    Machine.exists_run_of_exec (by decide +kernel)
  have hgrows := (justified_commitsMore _ _).mp (h 1 wire false _ _ _ tr s hr)
  rw [htr] at hgrows
  exact absurd hgrows (by decide +kernel)

end Keron.Server
