import Keron.Queue.ProducerHash

/-! The table of producers is sound: whatever the interleaving and however often it grows, each
thread finds its own producer in it. -/

namespace Keron.Queue.ProducerHash

open TraceMachines

variable {ι : Type}

section invariants

def slotAt (capacity hashedId : Index) : ℕ → Index
  | 0 => hashedId &&& (capacity - 1)
  | k + 1 => (slotAt capacity hashedId k + 1) &&& (capacity - 1)

variable (hashedId : ι → Index) (tables : ℕ → ImplicitProducerHash ι) (allocated : ℕ) (t : ι)
  (mine : List ℕ)

def Absent (hash : ℕ) : Prop := ∀ i, (tables hash).key i ≠ some t

def Settled : Prop := mine ≠ [] → ∃ hash i, (tables hash).key i = some t

def Taken (hash k : ℕ) : Prop :=
  ∀ j < k, (tables hash).key (slotAt (tables hash).capacity (hashedId t) j) ≠ none

def At : Thread → Prop
  | .idle | .load | .returned none => Settled tables t mine
  | .returned (some x) => Settled tables t mine ∧ mine = [x]
  | .probe mainHash hash index => mainHash < allocated ∧ hash ≤ mainHash ∧
    (∀ later > hash, Absent tables t later) ∧ Settled tables t mine ∧
    ∃ k, (tables hash).slot index = slotAt (tables hash).capacity (hashedId t) k ∧
      Taken hashedId tables t hash k ∧
      ∀ j < k, (tables hash).key (slotAt (tables hash).capacity (hashedId t) j) ≠ some t
  | .readValue mainHash hash i => mainHash < allocated ∧ hash ≤ mainHash ∧
    (∀ later > hash, Absent tables t later) ∧ (tables hash).key i = some t
  | .insert mainHash index producer => mainHash < allocated ∧ Absent tables t mainHash ∧
    (∃ x, producer = some x ∧ mine = [x]) ∧
    ∃ k, (tables mainHash).slot index = slotAt (tables mainHash).capacity (hashedId t) k ∧
      Taken hashedId tables t mainHash k
  | .swap mainHash i producer => mainHash < allocated ∧ Absent tables t mainHash ∧
    (∃ x, producer = some x ∧ mine = [x]) ∧
    ∃ k, i = slotAt (tables mainHash).capacity (hashedId t) k ∧ Taken hashedId tables t mainHash k
  | .store mainHash i producer => (tables mainHash).key i = some t ∧
    ∃ x, producer = some x ∧ mine = [x]
  | .addCount mainHash | .testCount mainHash _ | .lock mainHash _ | .grow mainHash _
  | .publish mainHash _ _ | .clear mainHash _ | .room mainHash _ | .create mainHash =>
    mainHash < allocated ∧ mine = [] ∧ ∀ hash, Absent tables t hash
  | .reload _ | .wait _ | .uncount _ | .unlock => mine = [] ∧ ∀ hash, Absent tables t hash

structure Own (v : Thread) : Prop where
  once : mine.length ≤ 1
  reach : ∀ hash i, (tables hash).key i = some t → hash < allocated ∧
    ∃ k, i = slotAt (tables hash).capacity (hashedId t) k ∧ Taken hashedId tables t hash k
  unique : ∀ hash i j, (tables hash).key i = some t → (tables hash).key j = some t → i = j
  value : ∀ hash i, (tables hash).key i = some t → ∃ x, mine = [x] ∧
    ((tables hash).value i = some x ∨ v = .store hash i (some x))
  at_ : At hashedId tables allocated t mine v

structure Frame (tables' : ℕ → ImplicitProducerHash ι) (allocated' : ℕ) : Prop where
  grows : allocated ≤ allocated'
  capacity : ∀ hash < allocated, (tables' hash).capacity = (tables hash).capacity
  key : ∀ hash i, (tables' hash).key i = some t ↔ (tables hash).key i = some t
  taken : ∀ hash < allocated, ∀ i, (tables hash).key i ≠ none → (tables' hash).key i ≠ none
  value : ∀ hash i, (tables hash).key i = some t →
    (tables' hash).value i = (tables hash).value i

end invariants

section frames

variable {hashedId : ι → Index} {tables tables' : ℕ → ImplicitProducerHash ι}
  {allocated allocated' : ℕ} {t : ι} {mine : List ℕ} {v : Thread}

lemma taken_zero {hash : ℕ} : Taken hashedId tables t hash 0 :=
  fun j hj => absurd hj (Nat.not_lt_zero j)

lemma Taken.succ {hash k : ℕ} (h : Taken hashedId tables t hash k)
    (hk : (tables hash).key (slotAt (tables hash).capacity (hashedId t) k) ≠ none) :
    Taken hashedId tables t hash (k + 1) :=
  Nat.forall_lt_succ_right.mpr ⟨h, hk⟩

lemma Frame.absent (f : Frame tables allocated t tables' allocated') {hash : ℕ}
    (h : Absent tables t hash) : Absent tables' t hash :=
  fun i hi => h i ((f.key hash i).mp hi)

lemma Frame.settled (f : Frame tables allocated t tables' allocated')
    (h : Settled tables t mine) : Settled tables' t mine := fun hmine =>
  (h hmine).imp fun hash => Exists.imp fun i => (f.key hash i).mpr

lemma Frame.takenAt (f : Frame tables allocated t tables' allocated') {hash k : ℕ}
    (hlt : hash < allocated) (h : Taken hashedId tables t hash k) :
    Taken hashedId tables' t hash k := by
  intro j hj
  rw [f.capacity hash hlt]
  exact f.taken hash hlt _ (h j hj)

lemma Frame.slot (f : Frame tables allocated t tables' allocated') {hash : ℕ}
    (hlt : hash < allocated) (index : Index) :
    (tables' hash).slot index = (tables hash).slot index := by
  rw [ImplicitProducerHash.slot, f.capacity hash hlt]
  rfl

lemma At.frame (h : At hashedId tables allocated t mine v)
    (f : Frame tables allocated t tables' allocated') :
    At hashedId tables' allocated' t mine v := by
  cases v with
  | idle | load => exact f.settled h
  | returned producer =>
    cases producer with
    | none => exact f.settled h
    | some x => exact ⟨f.settled h.1, h.2⟩
  | probe mainHash hash index =>
    obtain ⟨hmain, hle, hlater, hsettled, k, hk, htaken, hother⟩ := h
    have hlt := hle.trans_lt hmain
    refine ⟨hmain.trans_le f.grows, hle, fun later hl => f.absent (hlater later hl),
      f.settled hsettled, k, ?_, f.takenAt hlt htaken, fun j hj => ?_⟩
    · rw [f.slot hlt, f.capacity hash hlt, hk]
    · rw [Ne, f.key, f.capacity hash hlt]
      exact hother j hj
  | readValue mainHash hash i =>
    exact ⟨h.1.trans_le f.grows, h.2.1, fun later hl => f.absent (h.2.2.1 later hl),
      (f.key hash i).mpr h.2.2.2⟩
  | insert mainHash index producer =>
    obtain ⟨hmain, habsent, hx, k, hk, htaken⟩ := h
    refine ⟨hmain.trans_le f.grows, f.absent habsent, hx, k, ?_, f.takenAt hmain htaken⟩
    rw [f.slot hmain, f.capacity mainHash hmain, hk]
  | swap mainHash i producer =>
    obtain ⟨hmain, habsent, hx, k, hk, htaken⟩ := h
    refine ⟨hmain.trans_le f.grows, f.absent habsent, hx, k, ?_, f.takenAt hmain htaken⟩
    rw [f.capacity mainHash hmain, hk]
  | store mainHash i producer => exact ⟨(f.key mainHash i).mpr h.1, h.2⟩
  | addCount m | testCount m _ | lock m _ | grow m _ | publish m _ _ | clear m _ | room m _
  | create m => exact ⟨h.1.trans_le f.grows, h.2.1, fun hash => f.absent (h.2.2 hash)⟩
  | reload _ | wait _ | uncount _ | unlock => exact ⟨h.1, fun hash => f.absent (h.2 hash)⟩

lemma Own.frame (h : Own hashedId tables allocated t mine v)
    (f : Frame tables allocated t tables' allocated') :
    Own hashedId tables' allocated' t mine v := by
  refine ⟨h.once, fun hash i hi => ?_, fun hash i j hi hj => ?_, fun hash i hi => ?_,
    h.at_.frame f⟩
  · obtain ⟨hlt, k, hk, htaken⟩ := h.reach hash i ((f.key hash i).mp hi)
    refine ⟨hlt.trans_le f.grows, k, ?_, f.takenAt hlt htaken⟩
    rw [f.capacity hash hlt, hk]
  · exact h.unique hash i j ((f.key hash i).mp hi) ((f.key hash j).mp hj)
  · have hi' := (f.key hash i).mp hi
    rw [f.value hash i hi']
    exact h.value hash i hi'

lemma Own.move (h : Own hashedId tables allocated t mine v) {v' : Thread}
    (hv : ∀ hash i x, v ≠ .store hash i x) (hat : At hashedId tables allocated t mine v') :
    Own hashedId tables allocated t mine v' := by
  refine ⟨h.once, h.reach, h.unique, fun hash i hi => ?_, hat⟩
  obtain ⟨x, hx, hvalue⟩ := h.value hash i hi
  exact ⟨x, hx, .inl (hvalue.resolve_right (hv hash i (some x)))⟩

lemma Own.absent (h : Own hashedId tables allocated t mine v) {hash k : ℕ}
    (hnone : (tables hash).key (slotAt (tables hash).capacity (hashedId t) k) = none)
    (hother : ∀ j < k, (tables hash).key (slotAt (tables hash).capacity (hashedId t) j) ≠ some t) :
    Absent tables t hash := by
  intro i hi
  obtain ⟨-, k', rfl, htaken⟩ := h.reach hash i hi
  rcases lt_trichotomy k k' with hlt | rfl | hlt
  · exact htaken k hlt hnone
  · rw [hnone] at hi
    cases hi
  · exact hother k' hlt hi

lemma Own.swap [DecidableEq ι] {mainHash : ℕ} {i : Index} {producer : Option ℕ}
    (h : Own hashedId tables allocated t mine (.swap mainHash i producer))
    (hnone : (tables mainHash).key i = none) :
    Own hashedId (Function.update tables mainHash { tables mainHash with
      key := Function.update (tables mainHash).key i (some t) }) allocated t mine
        (.store mainHash i producer) := by
  obtain ⟨hmain, habsent, ⟨x, rfl, rfl⟩, k, hk, htaken⟩ := h.at_
  set tables' := Function.update tables mainHash { tables mainHash with
    key := Function.update (tables mainHash).key i (some t) } with htables
  have hself : tables' mainHash = { tables mainHash with
      key := Function.update (tables mainHash).key i (some t) } := Function.update_self ..
  have hne {hash : ℕ} (hn : hash ≠ mainHash) : tables' hash = tables hash :=
    Function.update_of_ne hn ..
  have hkey {j : Index} (hj : (tables' mainHash).key j = some t) : j = i := by
    by_contra hji
    rw [hself] at hj
    exact habsent j ((Function.update_of_ne hji ..).symm.trans hj)
  have htaken' : Taken hashedId tables' t mainHash k := by
    intro j hj
    rw [hself]
    change Function.update (tables mainHash).key i (some t)
      (slotAt (tables mainHash).capacity (hashedId t) j) ≠ none
    by_cases hji : slotAt (tables mainHash).capacity (hashedId t) j = i
    · rw [hji, Function.update_self]
      simp
    · rw [Function.update_of_ne hji]
      exact htaken j hj
  refine ⟨h.once, fun hash j hj => ?_, fun hash j j' hj hj' => ?_, fun hash j hj => ?_, ?_, x,
    rfl, rfl⟩
  · rcases eq_or_ne hash mainHash with rfl | hn
    · obtain rfl := hkey hj
      refine ⟨hmain, k, ?_, htaken'⟩
      rw [hself]
      exact hk
    · rw [hne hn] at hj
      obtain ⟨hlt, k', hk', ht'⟩ := h.reach hash j hj
      refine ⟨hlt, k', by rw [hne hn]; exact hk', fun l hl => ?_⟩
      rw [hne hn]
      exact ht' l hl
  · rcases eq_or_ne hash mainHash with rfl | hn
    · rw [hkey hj, hkey hj']
    · rw [hne hn] at hj hj'
      exact h.unique hash j j' hj hj'
  · rcases eq_or_ne hash mainHash with rfl | hn
    · obtain rfl := hkey hj
      exact ⟨x, rfl, .inr rfl⟩
    · rw [hne hn] at hj ⊢
      obtain ⟨y, hy, hvalue⟩ := h.value hash j hj
      exact ⟨y, hy, .inl (hvalue.resolve_right (by simp))⟩
  · rw [hself]
    exact Function.update_self ..

lemma Own.store {mainHash : ℕ} {i : Index} {producer : Option ℕ}
    (h : Own hashedId tables allocated t mine (.store mainHash i producer)) :
    Own hashedId (Function.update tables mainHash { tables mainHash with
      value := Function.update (tables mainHash).value i producer }) allocated t mine
        (.returned producer) := by
  obtain ⟨hkey, x, rfl, rfl⟩ := h.at_
  set tables' := Function.update tables mainHash { tables mainHash with
    value := Function.update (tables mainHash).value i (some x) } with htables
  have hself : tables' mainHash = { tables mainHash with
      value := Function.update (tables mainHash).value i (some x) } := Function.update_self ..
  have hne {hash : ℕ} (hn : hash ≠ mainHash) : tables' hash = tables hash :=
    Function.update_of_ne hn ..
  have hkeys (hash : ℕ) : (tables' hash).key = (tables hash).key ∧
      (tables' hash).capacity = (tables hash).capacity := by
    rcases eq_or_ne hash mainHash with rfl | hn
    · rw [hself]
      exact ⟨rfl, rfl⟩
    · rw [hne hn]
      exact ⟨rfl, rfl⟩
  refine ⟨h.once, fun hash j hj => ?_, fun hash j j' hj hj' => ?_, fun hash j hj => ?_, ?_, rfl⟩
  · rw [(hkeys hash).1] at hj
    obtain ⟨hlt, k, hk, htaken⟩ := h.reach hash j hj
    refine ⟨hlt, k, by rw [(hkeys hash).2]; exact hk, fun l hl => ?_⟩
    rw [(hkeys hash).1, (hkeys hash).2]
    exact htaken l hl
  · rw [(hkeys hash).1] at hj hj'
    exact h.unique hash j j' hj hj'
  · rw [(hkeys hash).1] at hj
    obtain ⟨y, hy, hvalue⟩ := h.value hash j hj
    refine ⟨y, hy, .inl ?_⟩
    obtain rfl : x = y := by simpa using hy
    rcases eq_or_ne hash mainHash with rfl | hn
    · obtain rfl := h.unique hash i j hkey hj
      rw [hself]
      exact Function.update_self ..
    · rw [hne hn]
      refine hvalue.resolve_right fun hv => ?_
      exact hn (Thread.store.inj hv).1.symm
  · refine fun _ => ⟨mainHash, i, ?_⟩
    rw [(hkeys mainHash).1]
    exact hkey

end frames

section steps

def Thread.Locked : Thread → Prop
  | .reload _ | .grow _ _ | .publish _ _ _ | .clear _ _ | .uncount true | .unlock => True
  | _ => False

def Thread.growing : Thread → Option ℕ
  | .grow mainHash _ | .publish mainHash _ _ => some mainHash
  | _ => none

structure Chain (s : State ι) : Prop where
  current : s.implicitProducerHash + 1 = s.allocated
  first : (s.tables 0).prev = none
  prev : ∀ hash, hash + 1 < s.allocated → (s.tables (hash + 1)).prev = some hash
  locked : ∀ t, (s.threads t).Locked → s.implicitProducerHashResizeInProgress = true
  exclusive : ∀ t u, (s.threads t).Locked → (s.threads u).Locked → t = u
  latest : ∀ t mainHash, (s.threads t).growing = some mainHash → mainHash = s.implicitProducerHash

structure Sound (hashedId : ι → Index) (s : State ι) (mine : ι → List ℕ) : Prop where
  chain : Chain s
  own : ∀ t, Own hashedId s.tables s.allocated t (mine t) (s.threads t)

variable [DecidableEq ι] {hashedId : ι → Index} {s s' : State ι} {t : ι} {mine : ι → List ℕ}
  {v : Thread} {os : List (Obs ι)}

lemma Chain.goto (h : Chain s) (hlock : v.Locked → (s.threads t).Locked)
    (hgrow : ∀ mainHash, v.growing = some mainHash → mainHash = s.implicitProducerHash) :
    Chain (s.goto t v) := by
  have hlocked (u : ι) (hu : ((s.goto t v).threads u).Locked) : (s.threads u).Locked := by
    rcases eq_or_ne u t with rfl | hne
    · exact hlock (by simpa [State.goto] using hu)
    · simpa [State.goto, hne] using hu
  refine ⟨h.current, h.first, h.prev, fun u hu => h.locked u (hlocked u hu),
    fun u w hu hw => h.exclusive u w (hlocked u hu) (hlocked w hw), fun u m hu => ?_⟩
  rcases eq_or_ne u t with rfl | hne
  · exact hgrow m (by simpa [State.goto] using hu)
  · exact h.latest u m (by simpa [State.goto, hne] using hu)

lemma Chain.acquire (h : Chain s) (hfree : s.implicitProducerHashResizeInProgress = false)
    (newCount : Index) :
    Chain ({ s with implicitProducerHashResizeInProgress := true }.goto t (.reload newCount)) := by
  have hnone (u : ι) : ¬ (s.threads u).Locked := fun hu => by
    simpa [hfree] using h.locked u hu
  have honly (u : ι) (hu : (Function.update s.threads t (.reload newCount) u).Locked) : u = t := by
    by_contra hne
    rw [Function.update_of_ne hne] at hu
    exact hnone u hu
  refine ⟨h.current, h.first, h.prev, fun _ _ => rfl,
    fun u w hu hw => (honly u hu).trans (honly w hw).symm, fun u m hu => ?_⟩
  rcases eq_or_ne u t with rfl | hne
  · simp [State.goto, Thread.growing] at hu
  · exact h.latest u m (by simpa [State.goto, hne] using hu)

lemma Chain.release (h : Chain s) (hlocked : (s.threads t).Locked) (hv : ¬ v.Locked)
    (hgrow : v.growing = none) :
    Chain ({ s with implicitProducerHashResizeInProgress := false }.goto t v) := by
  have hnone (u : ι) : ¬ (Function.update s.threads t v u).Locked := by
    rcases eq_or_ne u t with rfl | hne
    · rwa [Function.update_self]
    · rw [Function.update_of_ne hne]
      exact fun hu => hne (h.exclusive u t hu hlocked)
  refine ⟨h.current, h.first, h.prev, fun u hu => absurd hu (hnone u),
    fun u _ hu => absurd hu (hnone u), fun u m hu => ?_⟩
  rcases eq_or_ne u t with rfl | hne
  · simp [State.goto, hgrow] at hu
  · exact h.latest u m (by simpa [State.goto, hne] using hu)

omit [DecidableEq ι] in
lemma Chain.setTable (h : Chain s) {hash : ℕ} {table : ImplicitProducerHash ι}
    (hprev : table.prev = (s.tables hash).prev) : Chain (s.setTable hash table) := by
  have htable (k : ℕ) : ((s.setTable hash table).tables k).prev = (s.tables k).prev := by
    rcases eq_or_ne k hash with rfl | hne
    · simp only [State.setTable, Function.update_self, hprev]
    · simp only [State.setTable, Function.update_of_ne hne]
  exact ⟨h.current, (htable 0).trans h.first, fun k hk => (htable (k + 1)).trans (h.prev k hk),
    h.locked, h.exclusive, h.latest⟩

lemma Sound.goto (h : Sound hashedId s mine) (chain : Chain s')
    (htables : s'.tables = s.tables) (hallocated : s'.allocated = s.allocated)
    (hthreads : s'.threads = Function.update s.threads t v)
    (hstore : ∀ hash i x, s.threads t ≠ .store hash i x)
    (hat : At hashedId s.tables s.allocated t (mine t) v) : Sound hashedId s' mine := by
  refine ⟨chain, fun u => ?_⟩
  rw [htables, hallocated, hthreads]
  rcases eq_or_ne u t with rfl | hne
  · rw [Function.update_self]
    exact (h.own u).move hstore hat
  · rw [Function.update_of_ne hne]
    exact h.own u

lemma Sound.setTable (h : Sound hashedId s mine) {hash : ℕ} {table : ImplicitProducerHash ι}
    (hprev : table.prev = (s.tables hash).prev)
    (hcapacity : table.capacity = (s.tables hash).capacity)
    (hkey : ∀ u ≠ t, ∀ i, table.key i = some u ↔ (s.tables hash).key i = some u)
    (htaken : ∀ i, (s.tables hash).key i ≠ none → table.key i ≠ none)
    (hvalue : ∀ u ≠ t, ∀ i, (s.tables hash).key i = some u →
      table.value i = (s.tables hash).value i)
    (hlocked : ¬ v.Locked) (hgrow : v.growing = none)
    (own : Own hashedId (Function.update s.tables hash table) s.allocated t (mine t) v) :
    Sound hashedId ((s.setTable hash table).goto t v) mine := by
  refine ⟨(h.chain.setTable hprev).goto (fun hv => absurd hv hlocked)
    (fun m hm => by rw [hgrow] at hm; cases hm), fun u => ?_⟩
  simp only [State.goto, State.setTable]
  rcases eq_or_ne u t with rfl | hne
  · rw [Function.update_self]
    exact own
  · rw [Function.update_of_ne hne]
    have hof {k : ℕ} (hk : k ≠ hash) : Function.update s.tables hash table k = s.tables k :=
      Function.update_of_ne hk ..
    refine (h.own u).frame
      ⟨le_rfl, fun k _ => ?_, fun k i => ?_, fun k _ i => ?_, fun k i => ?_⟩ <;>
      rcases eq_or_ne k hash with rfl | hk
    · rw [Function.update_self, hcapacity]
    · rw [hof hk]
    · rw [Function.update_self, hkey u hne]
    · rw [hof hk]
    · rw [Function.update_self]
      exact htaken i
    · rw [hof hk]
      exact id
    · rw [Function.update_self]
      exact hvalue u hne i
    · rw [hof hk]
      exact fun _ => rfl

lemma Sound.swap (h : Sound hashedId s mine) {mainHash : ℕ} {i : Index} {producer : Option ℕ}
    (hv : s.threads t = .swap mainHash i producer) (hnone : (s.tables mainHash).key i = none) :
    Sound hashedId ((s.setTable mainHash { s.tables mainHash with
      key := Function.update (s.tables mainHash).key i (some t) }).goto t
        (.store mainHash i producer)) mine := by
  have own := h.own t
  rw [hv] at own
  refine h.setTable rfl rfl (fun u hu j => ?_) (fun j hj => ?_) (fun _ _ _ _ => rfl) id rfl
    (own.swap hnone)
  · rcases eq_or_ne j i with rfl | hne
    · simp [hnone, hu.symm]
    · simp [hne]
  · rcases eq_or_ne j i with rfl | hne
    · simp
    · simpa [hne] using hj

lemma Sound.store (h : Sound hashedId s mine) {mainHash : ℕ} {i : Index} {producer : Option ℕ}
    (hv : s.threads t = .store mainHash i producer) :
    Sound hashedId ((s.setTable mainHash { s.tables mainHash with
      value := Function.update (s.tables mainHash).value i producer }).goto t
        (.returned producer)) mine := by
  have own := h.own t
  rw [hv] at own
  refine h.setTable rfl rfl (fun _ _ _ => Iff.rfl) (fun _ => id) (fun u hu j hj => ?_) id rfl
    own.store
  refine Function.update_of_ne ?_ ..
  rintro rfl
  rw [own.at_.1] at hj
  exact hu (Option.some.inj hj).symm

lemma Sound.publish (h : Sound hashedId s mine) {mainHash : ℕ} {newCount capacity : Index}
    (hv : s.threads t = .publish mainHash newCount capacity) :
    Sound hashedId ({ s.setTable s.allocated (.empty capacity (some mainHash)) with
      allocated := s.allocated + 1
      implicitProducerHash := s.allocated }.goto t (.clear s.allocated newCount)) mine := by
  have hmain : mainHash = s.implicitProducerHash := h.chain.latest t mainHash (by rw [hv]; rfl)
  have hlocked : (s.threads t).Locked := by rw [hv]; trivial
  have hne {k : ℕ} (hk : k < s.allocated) : Function.update s.tables s.allocated
      (ImplicitProducerHash.empty capacity (some mainHash)) k = s.tables k :=
    Function.update_of_ne hk.ne ..
  have hpos : 0 < s.allocated := by have := h.chain.current; omega
  have frame (u : ι) : Frame s.tables s.allocated u (Function.update s.tables s.allocated
      (.empty capacity (some mainHash))) (s.allocated + 1) := by
    have hnone (i : Index) : (s.tables s.allocated).key i ≠ some u :=
      fun hi => lt_irrefl _ ((h.own u).reach _ i hi).1
    refine ⟨Nat.le_succ _, fun k hk => by rw [hne hk], fun k i => ?_,
      fun k hk i => by rw [hne hk]; exact id, fun k i hi => ?_⟩
    · rcases eq_or_ne k s.allocated with rfl | hk
      · simp [ImplicitProducerHash.empty, hnone i]
      · rw [Function.update_of_ne hk]
    · rw [hne ((h.own u).reach k i hi).1]
  refine ⟨⟨rfl, ?_, fun k hk => ?_, fun u hu => ?_, fun u w hu hw => ?_, fun u m hu => ?_⟩,
    fun u => ?_⟩
  · exact (congrArg ImplicitProducerHash.prev (hne hpos)).trans h.chain.first
  · rcases Nat.lt_succ_iff_lt_or_eq.mp hk with hlt | heq
    · exact (congrArg ImplicitProducerHash.prev (hne hlt)).trans (h.chain.prev k hlt)
    · have hcurrent := h.chain.current
      obtain rfl : k = mainHash := by omega
      change (Function.update s.tables s.allocated _ (k + 1)).prev = _
      rw [heq, Function.update_self]
      rfl
  · exact h.chain.locked t hlocked
  · have honly (u : ι) (hu : (Function.update s.threads t (.clear s.allocated newCount) u).Locked) :
        u = t := by
      by_contra hn
      rw [Function.update_of_ne hn] at hu
      exact hn (h.chain.exclusive u t hu hlocked)
    exact (honly u hu).trans (honly w hw).symm
  · rcases eq_or_ne u t with rfl | hn
    · simp [State.goto, Thread.growing] at hu
    · have hu' : (s.threads u).growing = some m := by
        simpa [State.goto, State.setTable, hn] using hu
      have hlocked' : (s.threads u).Locked := by
        cases hw : s.threads u <;> rw [hw] at hu' <;> trivial
      exact absurd (h.chain.exclusive u t hlocked' hlocked) hn
  · simp only [State.goto, State.setTable]
    rcases eq_or_ne u t with rfl | hn
    · have own := (h.own u).frame (frame u)
      rw [hv] at own
      rw [Function.update_self]
      exact own.move (by simp) ⟨Nat.lt_succ_self _, own.at_.2⟩
    · rw [Function.update_of_ne hn]
      exact (h.own u).frame (frame u)

lemma Sound.create (h : Sound hashedId s mine) {mainHash : ℕ}
    (hv : s.threads t = .create mainHash) (x : ℕ) :
    Sound hashedId ({ s with created := x + 1 }.goto t
      (.insert mainHash (hashedId t) (some x))) (Function.update mine t (mine t ++ [x])) := by
  have own := h.own t
  rw [hv] at own
  obtain ⟨hmain, hmine, habsent⟩ := own.at_
  have chain := h.chain.goto (t := t) (v := .insert mainHash (hashedId t) (some x)) False.elim
    (fun m hm => by cases hm)
  refine ⟨⟨chain.current, chain.first, chain.prev, chain.locked, chain.exclusive, chain.latest⟩,
    fun u => ?_⟩
  simp only [State.goto]
  rcases eq_or_ne u t with rfl | hne
  · rw [Function.update_self, Function.update_self, hmine]
    exact ⟨le_rfl, fun k i hi => absurd hi (habsent k i), fun k i _ hi => absurd hi (habsent k i),
      fun k i hi => absurd hi (habsent k i), hmain, habsent mainHash, ⟨x, rfl, rfl⟩, 0, rfl,
      taken_zero⟩
  · rw [Function.update_of_ne hne, Function.update_of_ne hne]
    exact h.own u

end steps

section runs

variable [DecidableEq ι] {hashedId : ι → Index} {s s' : State ι} {t : ι} {mine : ι → List ℕ}
  {os tr : List (Obs ι)} {granted : Bool}

lemma Sound.look (h : Sound hashedId s mine) {v : Thread}
    (hlock : v.Locked → (s.threads t).Locked)
    (hgrow : ∀ mainHash, v.growing = some mainHash → mainHash = s.implicitProducerHash)
    (hstore : ∀ hash i x, s.threads t ≠ .store hash i x)
    (hat : At hashedId s.tables s.allocated t (mine t) v) : Sound hashedId (s.goto t v) mine :=
  h.goto (h.chain.goto hlock hgrow) rfl rfl rfl hstore hat

lemma Sound.pass (h : Sound hashedId s mine) {v : Thread} (hlocked : ¬ v.Locked)
    (hgrow : v.growing = none) (hstore : ∀ hash i x, s.threads t ≠ .store hash i x)
    (hat : At hashedId s.tables s.allocated t (mine t) v) : Sound hashedId (s.goto t v) mine :=
  h.look (fun hv => absurd hv hlocked) (fun m hm => by rw [hgrow] at hm; cases hm) hstore hat

omit [DecidableEq ι] in
lemma Sound.count (h : Sound hashedId s mine) (count : Index) :
    Sound hashedId { s with implicitProducerHashCount := count } mine :=
  ⟨⟨h.chain.current, h.chain.first, h.chain.prev, h.chain.locked, h.chain.exclusive,
    h.chain.latest⟩, h.own⟩

lemma Sound.load (h : Sound hashedId s mine) (hv : s.threads t = .load) :
    Sound hashedId (s.goto t (.probe s.implicitProducerHash s.implicitProducerHash (hashedId t)))
      mine := by
  have own := h.own t
  rw [hv] at own
  have hcurrent := h.chain.current
  refine h.pass id rfl (by simp [hv])
    ⟨by omega, le_rfl, fun later hl i hi => ?_, own.at_, 0, rfl,
      taken_zero, by simp⟩
  have hlt := (own.reach later i hi).1
  omega

lemma Sound.probe (h : Sound hashedId s mine) {mainHash hash : ℕ} {index : Index}
    (hv : s.threads t = .probe mainHash hash index)
    (hs : s.run hashedId t granted = some (s', os)) : Sound hashedId s' mine ∧ os = [] := by
  have own := h.own t
  rw [hv] at own
  obtain ⟨hmain, hle, hlater, hsettled, k, hk, htaken, hother⟩ := own.at_
  have hstore : ∀ hash i x, s.threads t ≠ .store hash i x := by simp [hv]
  simp only [State.run, hv] at hs
  cases hkey : (s.tables hash).key ((s.tables hash).slot index) with
  | some probedKey =>
    simp only [hkey] at hs
    split_ifs at hs with hid <;> obtain ⟨rfl, rfl⟩ := Prod.mk.inj (Option.some.inj hs)
    · exact ⟨h.pass id rfl hstore ⟨hmain, hle, hlater, hid ▸ hkey⟩, rfl⟩
    · rw [hk] at hkey
      have hkey' : (s.tables hash).key (slotAt (s.tables hash).capacity (hashedId t) k) ≠
          some t := by simpa [hkey] using hid
      exact ⟨h.pass id rfl hstore ⟨hmain, hle, hlater, hsettled, k + 1, by rw [hk]; rfl,
        htaken.succ (by simp [hkey]), Nat.forall_lt_succ_right.mpr ⟨hother, hkey'⟩⟩, rfl⟩
  | none =>
    have habsent : Absent s.tables t hash := own.absent (hk ▸ hkey) hother
    have hfrom : ∀ later ≥ hash, Absent s.tables t later := fun later hl => by
      rcases eq_or_lt_of_le hl with rfl | hlt
      · exact habsent
      · exact hlater later hlt
    simp only [hkey] at hs
    rcases hash with _ | hash
    · rw [h.chain.first] at hs
      obtain ⟨rfl, rfl⟩ := Prod.mk.inj (Option.some.inj hs)
      have hnone : ∀ hash, Absent s.tables t hash := fun k => hfrom k (Nat.zero_le k)
      have hmine : mine t = [] := by
        by_contra hne
        obtain ⟨k, i, hi⟩ := hsettled hne
        exact hnone k i hi
      exact ⟨h.pass id rfl hstore ⟨hmain, hmine, hnone⟩, rfl⟩
    · have hcurrent := h.chain.current
      rw [h.chain.prev hash (hle.trans_lt hmain)] at hs
      obtain ⟨rfl, rfl⟩ := Prod.mk.inj (Option.some.inj hs)
      exact ⟨h.pass id rfl hstore
        ⟨hmain, by omega, fun later hl => hfrom later hl, hsettled, 0, rfl,
          taken_zero, by simp⟩, rfl⟩

lemma Sound.readValue (h : Sound hashedId s mine) {mainHash hash : ℕ} {i : Index}
    (hv : s.threads t = .readValue mainHash hash i)
    (hs : s.run hashedId t granted = some (s', os)) : Sound hashedId s' mine ∧ os = [] := by
  have own := h.own t
  rw [hv] at own
  obtain ⟨hmain, hle, hlater, hkey⟩ := own.at_
  obtain ⟨x, hx, hvalue⟩ := own.value hash i hkey
  have hvalue' := hvalue.resolve_right (by simp)
  have hstore : ∀ hash i x, s.threads t ≠ .store hash i x := by simp [hv]
  simp only [State.run, hv, hvalue'] at hs
  split_ifs at hs with hmain' <;> obtain ⟨rfl, rfl⟩ := Prod.mk.inj (Option.some.inj hs)
  · exact ⟨h.pass id rfl hstore ⟨fun _ => ⟨hash, i, hkey⟩, hx⟩, rfl⟩
  · exact ⟨h.pass id rfl hstore
      ⟨hmain, hlater mainHash (lt_of_le_of_ne hle hmain'), ⟨x, rfl, hx⟩, 0, rfl,
        taken_zero⟩, rfl⟩

lemma Sound.insert (h : Sound hashedId s mine) {mainHash : ℕ} {index : Index}
    {producer : Option ℕ} (hv : s.threads t = .insert mainHash index producer)
    (hs : s.run hashedId t granted = some (s', os)) : Sound hashedId s' mine ∧ os = [] := by
  have own := h.own t
  rw [hv] at own
  obtain ⟨hmain, habsent, hx, k, hk, htaken⟩ := own.at_
  have hstore : ∀ hash i x, s.threads t ≠ .store hash i x := by simp [hv]
  simp only [State.run, hv] at hs
  split_ifs at hs with hnone <;> obtain ⟨rfl, rfl⟩ := Prod.mk.inj (Option.some.inj hs)
  · exact ⟨h.pass id rfl hstore ⟨hmain, habsent, hx, k, hk, htaken⟩, rfl⟩
  · exact ⟨h.pass id rfl hstore
      ⟨hmain, habsent, hx, k + 1, by rw [hk]; rfl, htaken.succ (hk ▸ hnone)⟩, rfl⟩

lemma Sound.swapFails (h : Sound hashedId s mine) {mainHash : ℕ} {i : Index}
    {producer : Option ℕ} (hv : s.threads t = .swap mainHash i producer)
    (hkey : (s.tables mainHash).key i ≠ none) :
    Sound hashedId (s.goto t (.insert mainHash (i + 1) producer)) mine := by
  have own := h.own t
  rw [hv] at own
  obtain ⟨hmain, habsent, hx, k, rfl, htaken⟩ := own.at_
  exact h.pass id rfl (by simp [hv]) ⟨hmain, habsent, hx, k + 1, rfl, htaken.succ hkey⟩

lemma Sound.run (h : Sound hashedId s mine) (hs : s.run hashedId t granted = some (s', os))
    (hcreate : ∀ mainHash, s.threads t ≠ .create mainHash) : Sound hashedId s' mine := by
  have own := h.own t
  have hlast := h.chain.current
  cases hv : s.threads t with
  | idle => simp [State.run, hv] at hs
  | load =>
    simp only [State.run, hv] at hs
    obtain ⟨rfl, -⟩ := Prod.mk.inj (Option.some.inj hs)
    exact h.load hv
  | probe => exact (h.probe hv hs).1
  | readValue => exact (h.readValue hv hs).1
  | insert => exact (h.insert hv hs).1
  | swap mainHash i producer =>
    simp only [State.run, hv] at hs
    split_ifs at hs with hnone <;> obtain ⟨rfl, -⟩ := Prod.mk.inj (Option.some.inj hs)
    · exact h.swap hv hnone
    · exact h.swapFails hv hnone
  | store =>
    simp only [State.run, hv] at hs
    obtain ⟨rfl, -⟩ := Prod.mk.inj (Option.some.inj hs)
    exact h.store hv
  | addCount mainHash =>
    rw [hv] at own
    simp only [State.run, hv] at hs
    obtain ⟨rfl, -⟩ := Prod.mk.inj (Option.some.inj hs)
    exact (h.count _).pass id rfl (by simp [hv]) own.at_
  | testCount mainHash newCount =>
    rw [hv] at own
    simp only [State.run, hv] at hs
    split_ifs at hs <;> obtain ⟨rfl, -⟩ := Prod.mk.inj (Option.some.inj hs) <;>
      exact h.pass id rfl (by simp [hv]) own.at_
  | room mainHash newCount =>
    rw [hv] at own
    simp only [State.run, hv] at hs
    split_ifs at hs <;> obtain ⟨rfl, -⟩ := Prod.mk.inj (Option.some.inj hs)
    · exact h.pass id rfl (by simp [hv]) own.at_
    · exact h.pass id rfl (by simp [hv]) own.at_.2
  | lock mainHash newCount =>
    rw [hv] at own
    simp only [State.run, hv] at hs
    split_ifs at hs with hheld <;> obtain ⟨rfl, -⟩ := Prod.mk.inj (Option.some.inj hs)
    · exact h.pass id rfl (by simp [hv]) own.at_
    · exact h.goto (h.chain.acquire (Bool.eq_false_of_not_eq_true hheld) newCount) rfl rfl rfl
        (by simp [hv]) own.at_.2
  | reload newCount =>
    rw [hv] at own
    simp only [State.run, hv] at hs
    obtain ⟨rfl, -⟩ := Prod.mk.inj (Option.some.inj hs)
    exact h.look (fun _ => by rw [hv]; trivial) (fun m hm => (Option.some.inj hm).symm)
      (by simp [hv]) ⟨by omega, own.at_⟩
  | grow mainHash newCount =>
    rw [hv] at own
    have hlatest := h.chain.latest t mainHash (by rw [hv]; rfl)
    simp only [State.run, hv] at hs
    split_ifs at hs
    · obtain ⟨capacity, -, hs⟩ := Option.bind_eq_some_iff.mp hs
      split_ifs at hs <;> obtain ⟨rfl, -⟩ := Prod.mk.inj (Option.some.inj hs)
      · exact h.look (fun _ => by rw [hv]; trivial)
          (fun m hm => (Option.some.inj hm).symm.trans hlatest) (by simp [hv]) own.at_
      · exact h.look (fun _ => by rw [hv]; trivial) (fun m hm => by cases hm) (by simp [hv])
          own.at_.2
    · obtain ⟨rfl, -⟩ := Prod.mk.inj (Option.some.inj hs)
      exact h.look (fun _ => by rw [hv]; trivial) (fun m hm => by cases hm) (by simp [hv]) own.at_
  | publish mainHash newCount capacity =>
    simp only [State.run, hv] at hs
    obtain ⟨rfl, -⟩ := Prod.mk.inj (Option.some.inj hs)
    exact h.publish hv
  | clear mainHash newCount =>
    rw [hv] at own
    simp only [State.run, hv] at hs
    obtain ⟨rfl, -⟩ := Prod.mk.inj (Option.some.inj hs)
    exact h.goto (h.chain.release (by rw [hv]; trivial) id rfl) rfl rfl rfl (by simp [hv]) own.at_
  | wait newCount =>
    rw [hv] at own
    simp only [State.run, hv] at hs
    obtain ⟨rfl, -⟩ := Prod.mk.inj (Option.some.inj hs)
    exact h.pass id rfl (by simp [hv]) ⟨by omega, own.at_⟩
  | create mainHash => exact absurd hv (hcreate mainHash)
  | uncount locked =>
    rw [hv] at own
    have hsettled : Settled s.tables t (mine t) := fun hne => absurd own.at_.1 hne
    cases locked <;> simp only [State.run, hv] at hs <;>
      obtain ⟨rfl, -⟩ := Prod.mk.inj (Option.some.inj hs)
    · exact (h.count _).pass id rfl (by simp [hv]) hsettled
    · exact (h.count _).look (fun _ => by rw [hv]; trivial) (fun m hm => by cases hm)
        (by simp [hv]) own.at_
  | unlock =>
    rw [hv] at own
    have hsettled : Settled s.tables t (mine t) := fun hne => absurd own.at_.1 hne
    simp only [State.run, hv] at hs
    obtain ⟨rfl, -⟩ := Prod.mk.inj (Option.some.inj hs)
    exact h.goto (h.chain.release (by rw [hv]; trivial) id rfl) rfl rfl rfl (by simp [hv]) hsettled
  | returned producer =>
    rw [hv] at own
    have hsettled : Settled s.tables t (mine t) := by
      cases producer
      · exact own.at_
      · exact own.at_.1
    simp only [State.run, hv] at hs
    obtain ⟨rfl, -⟩ := Prod.mk.inj (Option.some.inj hs)
    exact h.pass id rfl (by simp [hv]) hsettled

def Thread.failing : Thread → Bool
  | .uncount _ | .unlock | .returned none => true
  | _ => false

inductive Shows (s : State ι) (t : ι) (v : Thread) : List (Obs ι) → ℕ → Prop
  | nothing : v.failing = (s.threads t).failing → Shows s t v [] s.created
  | refused : (s.threads t).failing = false → v.failing = true →
      Shows s t v [.refused t] s.created
  | returned (producer : Option ℕ) : s.threads t = .returned producer → v = .idle →
      Shows s t v [.returned t producer] s.created
  | created (mainHash : ℕ) : s.threads t = .create mainHash → v.failing = false →
      Shows s t v [.created t s.created] (s.created + 1)

lemma run_shows {m : List ℕ} (own : Own hashedId s.tables s.allocated t m (s.threads t))
    (hs : s.run hashedId t granted = some (s', os)) : ∃ (r : State ι) (v : Thread),
      s' = r.goto t v ∧ r.threads = s.threads ∧ Shows s t v os r.created := by
  have goes {r : State ι} {v : Thread} {os' : List (Obs ι)}
      (hs : some (r.goto t v, os') = some (s', os)) (hr : r.threads = s.threads)
      (h : Shows s t v os' r.created) : ∃ (r : State ι) (v : Thread),
        s' = r.goto t v ∧ r.threads = s.threads ∧ Shows s t v os r.created := by
    obtain ⟨rfl, rfl⟩ := Prod.mk.inj (Option.some.inj hs)
    exact ⟨r, v, rfl, hr, h⟩
  cases hv : s.threads t with
  | idle => simp [State.run, hv] at hs
  | probe mainHash hash index =>
    simp only [State.run, hv] at hs
    split at hs
    · split_ifs at hs <;> exact goes hs rfl (.nothing (by rw [hv]; rfl))
    · split at hs <;> exact goes hs rfl (.nothing (by rw [hv]; rfl))
  | readValue mainHash hash i =>
    rw [hv] at own
    obtain ⟨x, -, hvalue⟩ := own.value hash i own.at_.2.2.2
    simp only [State.run, hv, hvalue.resolve_right (by simp)] at hs
    split_ifs at hs <;> exact goes hs rfl (.nothing (by rw [hv]; rfl))
  | store mainHash i producer =>
    rw [hv] at own
    obtain ⟨-, x, rfl, -⟩ := own.at_
    simp only [State.run, hv] at hs
    exact goes hs rfl (.nothing (by rw [hv]; rfl))
  | grow mainHash newCount =>
    simp only [State.run, hv] at hs
    split_ifs at hs
    · obtain ⟨capacity, -, hs⟩ := Option.bind_eq_some_iff.mp hs
      split_ifs at hs
      · exact goes hs rfl (.nothing (by rw [hv]; rfl))
      · exact goes hs rfl (.refused (by rw [hv]; rfl) rfl)
    · exact goes hs rfl (.nothing (by rw [hv]; rfl))
  | create mainHash =>
    simp only [State.run, hv] at hs
    split_ifs at hs
    · exact goes hs rfl (.created mainHash hv rfl)
    · exact goes hs rfl (.refused (by rw [hv]; rfl) rfl)
  | returned producer =>
    simp only [State.run, hv] at hs
    exact goes hs rfl (.returned producer hv rfl)
  | insert | swap | testCount | lock | room | uncount =>
    simp only [State.run, hv] at hs
    split_ifs at hs <;> exact goes hs rfl (.nothing (by rw [hv]; rfl))
  | load | addCount | reload | publish | clear | wait | unlock =>
    simp only [State.run, hv] at hs
    exact goes hs rfl (.nothing (by rw [hv]; rfl))

def Accounted (tr : List (Obs ι)) (s : State ι) : Prop :=
  ∀ t, tr.count (.refused t) = tr.count (.returned t none) + (s.threads t).failing.toNat

lemma Accounted.run (h : Accounted tr s) (sound : Sound hashedId s mine)
    (hs : s.run hashedId t granted = some (s', os)) : Accounted (tr ++ os) s' := by
  obtain ⟨r, v, rfl, hr, hshows⟩ := run_shows (sound.own t) hs
  have hthreads : (r.goto t v).threads = Function.update s.threads t v := by rw [State.goto, hr]
  generalize r.created = created at hshows
  intro u
  have hu := h u
  rw [List.count_append, List.count_append, hthreads]
  rcases eq_or_ne u t with rfl | hne
  · rw [Function.update_self]
    cases hshows with
    | nothing hv => simpa [hv] using hu
    | refused hfailing hv =>
      rw [hfailing] at hu
      simpa [hv] using hu
    | returned producer hp hv =>
      rw [hp] at hu
      subst hv
      cases producer <;> simpa [Thread.failing] using hu
    | created mainHash hp hv =>
      have hcreate : (Thread.create mainHash).failing = false := rfl
      rw [hp, hcreate] at hu
      simpa [hv] using hu
  · rw [Function.update_of_ne hne]
    cases hshows <;> simpa [hne.symm] using hu

structure Good (hashedId : ι → Index) (tr : List (Obs ι)) (s : State ι) : Prop where
  sound : Sound hashedId s fun t => made t tr
  returned : ∀ t x, .returned t (some x) ∈ tr → made t tr = [x]
  fresh : ∀ t, ∀ x ∈ made t tr, x < s.created
  distinct : ∀ t u x, x ∈ made t tr → x ∈ made u tr → t = u

lemma made_append (u : ι) : made u (tr ++ os) = made u tr ++ made u os := List.filterMap_append

lemma Good.silent (h : Good hashedId tr s) (sound : Sound hashedId s' fun t => made t tr)
    (hmade : ∀ u, made u os = []) (hcreated : s'.created = s.created)
    (hreturned : ∀ u x, .returned u (some x) ∈ os → made u tr = [x]) :
    Good hashedId (tr ++ os) s' := by
  have hsame (u : ι) : made u (tr ++ os) = made u tr := by
    rw [made_append, hmade, List.append_nil]
  refine ⟨by simpa only [hsame] using sound, fun u x hx => ?_, fun u => ?_, fun u w => ?_⟩
  · rw [hsame]
    rcases List.mem_append.mp hx with hx | hx
    · exact h.returned u x hx
    · exact hreturned u x hx
  · rw [hsame, hcreated]
    exact h.fresh u
  · rw [hsame, hsame]
    exact h.distinct u w

lemma Good.create (h : Good hashedId tr s) {mainHash : ℕ} (hv : s.threads t = .create mainHash) :
    Good hashedId (tr ++ [.created t s.created]) ({ s with created := s.created + 1 }.goto t
      (.insert mainHash (hashedId t) (some s.created))) := by
  have hself : made t (tr ++ [.created t s.created]) = made t tr ++ [s.created] := by
    simp [made]
  have hother {u : ι} (hu : u ≠ t) : made u (tr ++ [.created t s.created]) = made u tr := by
    simp [made, hu.symm]
  have hnil : made t tr = [] := by
    have own := h.sound.own t
    rw [hv] at own
    exact own.at_.2.1
  have hmem {u : ι} {x : ℕ} (hx : x ∈ made u (tr ++ [.created t s.created])) :
      x ∈ made u tr ∨ u = t ∧ x = s.created := by
    rcases eq_or_ne u t with rfl | hu
    · rw [hself, hnil] at hx
      exact .inr ⟨rfl, by simpa using hx⟩
    · exact .inl (hother hu ▸ hx)
  refine ⟨?_, fun u x hx => ?_, fun u x hx => ?_, fun u w x hu hw => ?_⟩
  · convert h.sound.create hv s.created using 1
    funext u
    rcases eq_or_ne u t with rfl | hu
    · rw [hself, Function.update_self]
    · rw [hother hu, Function.update_of_ne hu]
  · have hx' : .returned u (some x) ∈ tr := by simpa using hx
    have hmade := h.returned u x hx'
    have hu : u ≠ t := by
      rintro rfl
      rw [hnil] at hmade
      cases hmade
    rw [hother hu, hmade]
  · rcases hmem hx with hx | ⟨-, rfl⟩
    · exact (h.fresh u x hx).trans (Nat.lt_succ_self _)
    · exact Nat.lt_succ_self _
  · rcases hmem hu with hu | ⟨rfl, rfl⟩ <;> rcases hmem hw with hw | ⟨hw, hx⟩
    · exact h.distinct u w x hu hw
    · exact absurd (h.fresh u x hu) (by omega)
    · exact absurd (h.fresh w _ hw) (lt_irrefl _)
    · exact hw.symm

lemma Good.step (h : Good hashedId tr s) {a : Action ι}
    (hs : (producerHash hashedId).step s a = some (s', os)) : Good hashedId (tr ++ os) s' := by
  rcases a with t | ⟨t, granted⟩
  · cases hv : s.threads t <;> simp only [producerHash, hv, reduceCtorEq] at hs
    obtain ⟨rfl, rfl⟩ := Prod.mk.inj (Option.some.inj hs)
    have own := h.sound.own t
    rw [hv] at own
    exact h.silent (h.sound.pass id rfl (by simp [hv])
      own.at_) (fun _ => rfl) rfl (by simp)
  · by_cases hcreate : ∀ mainHash, s.threads t ≠ .create mainHash
    · have sound := h.sound.run hs hcreate
      obtain ⟨r, v, rfl, -, hshows⟩ := run_shows (h.sound.own t) hs
      generalize hcreated : r.created = created at hshows
      cases hshows with
      | nothing => exact h.silent sound (fun _ => rfl) hcreated (by simp)
      | refused => exact h.silent sound (fun _ => rfl) hcreated (by simp)
      | returned producer hv =>
        refine h.silent sound (fun _ => rfl) hcreated fun u x hx => ?_
        obtain ⟨rfl, rfl⟩ : u = t ∧ some x = producer := by simpa using hx
        have own := h.sound.own u
        rw [hv] at own
        exact own.at_.2
      | created mainHash hv => exact absurd hv (hcreate mainHash)
    · push Not at hcreate
      obtain ⟨mainHash, hv⟩ := hcreate
      simp only [producerHash, State.run, hv] at hs
      split_ifs at hs <;> obtain ⟨rfl, rfl⟩ := Prod.mk.inj (Option.some.inj hs)
      · exact h.create hv
      · have own := h.sound.own t
        rw [hv] at own
        exact h.silent (h.sound.pass id rfl
          (by simp [hv]) own.at_.2) (fun _ => rfl) rfl (by simp)

lemma good_initial : Good hashedId [] .initial where
  sound :=
    { chain := ⟨rfl, rfl, fun k hk => absurd hk (by simp [State.initial]), fun _ => False.elim,
        fun _ _ => False.elim, fun _ _ hm => by cases hm⟩
      own := fun t => ⟨Nat.zero_le _, fun _ _ hi => (by cases hi), fun _ _ _ hi => (by cases hi),
        fun _ _ hi => (by cases hi), fun hne => absurd rfl hne⟩ }
  returned _ _ hx := by cases hx
  fresh _ _ hx := by cases hx
  distinct _ _ _ hx := by cases hx

lemma Accounted.step (h : Accounted tr s) (sound : Sound hashedId s mine) {a : Action ι}
    (hs : (producerHash hashedId).step s a = some (s', os)) : Accounted (tr ++ os) s' := by
  rcases a with t | ⟨t, granted⟩
  · cases hv : s.threads t <;> simp only [producerHash, hv, reduceCtorEq] at hs
    obtain ⟨rfl, rfl⟩ := Prod.mk.inj (Option.some.inj hs)
    intro u
    rw [List.append_nil, h u]
    rcases eq_or_ne u t with rfl | hne
    · simp [State.goto, hv, Thread.failing]
    · simp [State.goto, hne]
  · exact h.run sound hs

end runs

def colliding : List (Action Bool) :=
  .call true :: List.replicate 7 (.run true true) ++
    .call false :: List.replicate 10 (.run false true) ++
      List.replicate 5 (.run true true) ++ .call true :: List.replicate 5 (.run true true)

lemma colliding_run : ∃ tr s, (producerHash fun _ : Bool => 5).Run .initial colliding tr s ∧
    tr = [.created true 0, .created false 1, .returned false (some 1), .returned true (some 0),
      .returned true (some 0)] :=
  Machine.exists_run_of_exec (by decide +kernel)

end Keron.Queue.ProducerHash
