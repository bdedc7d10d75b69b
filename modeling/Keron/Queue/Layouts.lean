import Keron.Queue.ImplicitProducer

/-! What the circular block indices of a producer stand for: an entry for every block that holds
an element, wherever its slot has been copied to. -/

namespace Keron.Queue

structure Layout where
  -- How many blocks have had their keys stored.
  announced : ℕ
  -- How many blocks the tail of the block index accounts for.
  placed : ℕ
  -- How many blocks have been linked to their entries.
  linked : ℕ
  -- Every block before this one has been released.
  oldest : ℕ
  entry : ℕ → ℕ
  -- The blocks that are linked and not released.
  block : ℕ → Option BlockId
  -- For each block index: the logarithm of its capacity, how far the slots run ahead of the block
  -- numbers, how many blocks its tail accounts for, and for how many it has slots.
  size : ℕ → ℕ
  shift : ℕ → ℕ
  mark : ℕ → ℕ
  reach : ℕ → ℕ

namespace Layout

def slot (L : Layout) (h k : ℕ) : ℕ := (k + L.shift h) % 2 ^ L.size h

lemma slot_lt (L : Layout) (h k : ℕ) : L.slot h k < 2 ^ L.size h :=
  Nat.mod_lt _ (Nat.two_pow_pos _)

lemma slot_succ (L : Layout) (h k : ℕ) : (L.slot h k + 1) % 2 ^ L.size h = L.slot h (k + 1) := by
  rw [slot, slot, Nat.mod_add_mod, Nat.add_right_comm]

lemma slot_inj (L : Layout) (h : ℕ) {o k k' : ℕ} (hk : o ≤ k) (hk' : o ≤ k')
    (hlt : k < o + 2 ^ L.size h) (hlt' : k' < o + 2 ^ L.size h) (heq : L.slot h k = L.slot h k') :
    k = k' := by
  have hmod : k ≡ k' [MOD 2 ^ L.size h] := Nat.ModEq.add_right_cancel' (L.shift h) heq
  rcases le_total k k' with hle | hle
  · have hdvd := (Nat.modEq_iff_dvd' hle).mp hmod
    have hzero := Nat.eq_zero_of_dvd_of_lt hdvd (by omega)
    omega
  · have hdvd := (Nat.modEq_iff_dvd' hle).mp hmod.symm
    have hzero := Nat.eq_zero_of_dvd_of_lt hdvd (by omega)
    omega

end Layout

structure HeaderOK (entries : ℕ) (L : Layout) (h : ℕ) (header : BlockIndexHeader) : Prop where
  size_le : L.size h ≤ 58
  capacity : header.capacity = .ofNat 64 (2 ^ L.size h)
  length : header.index.length = 2 ^ L.size h
  nodup : header.index.Nodup
  bound : ∀ e ∈ header.index, e < entries
  mark_le : L.mark h ≤ L.reach h
  reach_le : L.reach h ≤ L.announced
  tail_lt : header.tail.toNat < 2 ^ L.size h
  tail : (header.tail.toNat + 1) % 2 ^ L.size h = L.slot h (L.mark h)
  window : L.reach h ≤ L.oldest + 2 ^ L.size h
  slot : ∀ k, L.oldest ≤ k → k < L.reach h → header.index[L.slot h k]? = some (L.entry k)

structure Ring (entries : List BlockIndexEntry) (headers : List BlockIndexHeader)
    (nextBlockIndexCapacity : Index) (L : Layout) : Prop where
  nonempty : headers ≠ []
  oldest_le : L.oldest ≤ L.linked
  linked_le : L.linked ≤ L.placed
  placed_le : L.placed ≤ L.announced
  announced_le : L.announced ≤ L.placed + 1
  live : ∀ k b, L.block k = some b → L.oldest ≤ k ∧ k < L.linked
  oldest_live : L.oldest < L.linked → L.block L.oldest ≠ none
  header : ∀ h header, headers[h]? = some header → HeaderOK entries.length L h header
  reach_last : L.reach (headers.length - 1) = L.announced
  mark_last : L.mark (headers.length - 1) = L.placed
  capacity : nextBlockIndexCapacity = .ofNat 64 (2 ^ (L.size (headers.length - 1) + 1))
  key : ∀ k, L.oldest ≤ k → k < L.announced → ∃ value,
    entries[L.entry k]? = some ⟨.ofNat 64 (32 * k), value⟩ ∧ (k < L.linked → value = L.block k)

section Ring

variable {entries : List BlockIndexEntry} {headers : List BlockIndexHeader} {cap : Index}
  {L : Layout}

lemma HeaderOK.getElem_slot {n h : ℕ} {header : BlockIndexHeader} (ok : HeaderOK n L h header)
    {t : Index} {k : ℕ} (ht : t.toNat = L.slot h k) : ∃ e, header.index[t.toNat]? = some e := by
  have hlt : t.toNat < header.index.length := by
    rw [ok.length, ht]
    exact L.slot_lt h k
  exact ⟨_, List.getElem?_eq_getElem hlt⟩

lemma HeaderOK.toNat_nextTail {n h : ℕ} {header : BlockIndexHeader} (ok : HeaderOK n L h header) :
    header.nextTail.toNat = L.slot h (L.mark h) := by
  have hone : (1 : Index).toNat = 1 := rfl
  rw [BlockIndexHeader.nextTail, ok.capacity,
    toNat_and_sub_one _ (ok.size_le.trans_lt (by norm_num)), BitVec.toNat_add, hone,
    Nat.mod_mod_of_dvd _ (Nat.pow_dvd_pow 2 (ok.size_le.trans (by norm_num))), ok.tail]

lemma HeaderOK.toNat_tail {n h k : ℕ} {header : BlockIndexHeader} (ok : HeaderOK n L h header)
    (hmark : L.mark h = k + 1) : header.tail.toNat = L.slot h k := by
  have htail := ok.tail
  rw [hmark, ← L.slot_succ] at htail
  have heq := Nat.ModEq.add_right_cancel' 1 htail
  rwa [Nat.ModEq, Nat.mod_eq_of_lt ok.tail_lt, Nat.mod_eq_of_lt (L.slot_lt _ _)] at heq

lemma Ring.find (ring : Ring entries headers cap L) {h i k : ℕ} {header : BlockIndexHeader}
    {tail : Index} (hh : headers[h]? = some header) (hold : L.oldest ≤ i / 32) (hik : i / 32 ≤ k)
    (hk : k < L.reach h) (htail : tail.toNat = L.slot h k) : ∃ tailEntry value,
      header.index[tail.toNat]? = some tailEntry ∧
      entries[tailEntry]? = some ⟨.ofNat 64 (32 * k), value⟩ ∧
      header.index[(blockIndexSlot header.capacity tail (.ofNat 64 i)
        (.ofNat 64 (32 * k))).toNat]? = some (L.entry (i / 32)) := by
  have ok := ring.header h header hh
  have hwindow := ok.window
  have hsize := ok.size_le
  have hpow : 2 ^ L.size h ≤ 2 ^ 58 := Nat.pow_le_pow_right (by norm_num) hsize
  obtain ⟨value, hkey, -⟩ := ring.key k (hold.trans hik) (hk.trans_le ok.reach_le)
  refine ⟨L.entry k, value, ?_, hkey, ?_⟩
  · rw [htail]
    exact ok.slot k (hold.trans hik) hk
  · rw [ok.capacity, toNat_blockIndexSlot (by omega) htail hik (by omega)]
    exact ok.slot _ hold (hik.trans_lt hk)

lemma Ring.last (ring : Ring entries headers cap L) : ∃ header,
    headers.getLast? = some header ∧ headers[headers.length - 1]? = some header ∧
      HeaderOK entries.length L (headers.length - 1) header := by
  obtain ⟨header, hh⟩ := Option.ne_none_iff_exists'.mp
    (mt List.getLast?_eq_none_iff.mp ring.nonempty)
  have hget := (List.getLast?_eq_getElem? (l := headers)).symm.trans hh
  exact ⟨header, hh, hget, ring.header _ _ hget⟩

lemma Ring.entry_inj (ring : Ring entries headers cap L) {k k' : ℕ} (hk : L.oldest ≤ k)
    (hk' : L.oldest ≤ k') (hlt : k < L.announced) (hlt' : k' < L.announced)
    (heq : L.entry k = L.entry k') : k = k' := by
  obtain ⟨header, -, -, ok⟩ := ring.last
  have hwindow := ok.window
  rw [ring.reach_last] at hwindow
  have hs := ok.slot k hk (ring.reach_last ▸ hlt)
  have hs' := ok.slot k' hk' (ring.reach_last ▸ hlt')
  rw [heq, ← hs'] at hs
  have hslot := (List.getElem?_inj (by rw [ok.length]; exact L.slot_lt _ _) ok.nodup).mp hs
  exact L.slot_inj _ hk hk' (by omega) (by omega) hslot

def Reusable (L : Layout) (idxEntry : ℕ) : Prop :=
  L.announced = L.placed ∧ (∀ k, L.oldest ≤ k → k < L.announced → L.entry k ≠ idxEntry) ∨
    L.announced = L.placed + 1 ∧ idxEntry = L.entry L.placed

def Layout.announce (L : Layout) (h idxEntry : ℕ) : Layout :=
  { L with
    announced := L.placed + 1
    entry := Function.update L.entry L.placed idxEntry
    reach := Function.update L.reach h (L.placed + 1) }

lemma Layout.announce_entry (L : Layout) (h e : ℕ) : (L.announce h e).entry L.placed = e :=
  Function.update_self ..

lemma Layout.announce_entry_of_ne (L : Layout) (h e : ℕ) {k : ℕ} (hk : k ≠ L.placed) :
    (L.announce h e).entry k = L.entry k :=
  Function.update_of_ne hk ..

lemma Layout.announce_reach (L : Layout) (h e : ℕ) : (L.announce h e).reach h = L.placed + 1 :=
  Function.update_self ..

lemma Layout.announce_reach_of_ne (L : Layout) (e : ℕ) {h h' : ℕ} (hh : h' ≠ h) :
    (L.announce h e).reach h' = L.reach h' :=
  Function.update_of_ne hh ..

lemma Ring.entry_announce {e h k : ℕ} (hr : Reusable L e) (hk : k < L.announced) :
    (L.announce h e).entry k = L.entry k := by
  rcases eq_or_ne k L.placed with rfl | hne
  · rcases hr with ⟨ha, -⟩ | ⟨-, rfl⟩
    · omega
    · exact L.announce_entry h _
  · exact L.announce_entry_of_ne h e hne

lemma Ring.entry_ne {e k : ℕ} (ring : Ring entries headers cap L) (hr : Reusable L e)
    (hk : L.oldest ≤ k) (hlt : k < L.placed) : L.entry k ≠ e := by
  rcases hr with ⟨ha, hne⟩ | ⟨ha, rfl⟩
  · exact hne k hk (ha ▸ hlt)
  · intro heq
    have hkp := ring.entry_inj hk (ring.oldest_le.trans ring.linked_le) (by omega) (by omega) heq
    omega

lemma Ring.announce {e : ℕ} {header : BlockIndexHeader} (ring : Ring entries headers cap L)
    (hlinked : L.linked = L.placed) (hh : headers.getLast? = some header)
    (he : header.index[L.slot (headers.length - 1) L.placed]? = some e) (hr : Reusable L e) :
    Ring (entries.modify e fun entry => { entry with key := .ofNat 64 (32 * L.placed) }) headers cap
      (L.announce (headers.length - 1) e) := by
  obtain ⟨header', hh', hget, ok⟩ := ring.last
  obtain rfl := Option.some.inj (hh.symm.trans hh')
  have hold := ring.oldest_le.trans ring.linked_le
  have hreach := ring.reach_last
  have hwin := ok.window
  -- A full block index has no reusable entry at its next slot.
  have hroom : L.placed + 1 ≤ L.oldest + 2 ^ L.size (headers.length - 1) := by
    rcases hr with ⟨ha, hne⟩ | ⟨ha, -⟩
    · by_contra hfull
      have hpos := Nat.two_pow_pos (L.size (headers.length - 1))
      have heq : L.placed = L.oldest + 2 ^ L.size (headers.length - 1) := by omega
      have hslot : L.slot (headers.length - 1) L.placed = L.slot (headers.length - 1) L.oldest := by
        rw [Layout.slot, Layout.slot, heq, Nat.add_right_comm, Nat.add_mod_right]
      have hs := ok.slot L.oldest le_rfl (by omega)
      rw [← hslot, he] at hs
      exact hne L.oldest le_rfl (by omega) (Option.some.inj hs).symm
    · omega
  have hbound : e < entries.length := ok.bound e (List.mem_of_getElem? he)
  have hle : L.announced ≤ L.placed + 1 := ring.announced_le
  refine {
    nonempty := ring.nonempty
    oldest_le := ring.oldest_le
    linked_le := ring.linked_le
    placed_le := Nat.le_succ _
    announced_le := le_rfl
    live := ring.live
    oldest_live := ring.oldest_live
    header := ?_
    reach_last := Function.update_self ..
    mark_last := ring.mark_last
    capacity := ring.capacity
    key := ?_ }
  · intro h hd hhd
    have okh := ring.header h hd hhd
    have hreach' : L.reach h ≤ (L.announce (headers.length - 1) e).reach h := by
      rcases eq_or_ne h (headers.length - 1) with rfl | hne
      · rw [L.announce_reach]
        omega
      · exact (L.announce_reach_of_ne e hne).ge
    refine { okh with
      bound := by simpa only [List.length_modify] using okh.bound
      mark_le := okh.mark_le.trans hreach'
      reach_le := ?_
      window := ?_
      slot := ?_ }
    · rcases eq_or_ne h (headers.length - 1) with rfl | hne
      · exact (L.announce_reach _ e).le
      · exact (L.announce_reach_of_ne e hne).le.trans (okh.reach_le.trans hle)
    · rcases eq_or_ne h (headers.length - 1) with rfl | hne
      · exact (L.announce_reach _ e).le.trans hroom
      · exact (L.announce_reach_of_ne e hne).le.trans okh.window
    · intro k hk hlt
      rcases Nat.lt_or_ge k (L.reach h) with hkr | hkr
      · rw [Ring.entry_announce hr (hkr.trans_le okh.reach_le)]
        exact okh.slot k hk hkr
      · have hlast : h = headers.length - 1 := by
          by_contra hne
          rw [L.announce_reach_of_ne e hne] at hlt
          omega
        subst hlast
        rw [L.announce_reach] at hlt
        have hplaced := ring.placed_le
        obtain rfl : k = L.placed := by omega
        obtain rfl := Option.some.inj (hget.symm.trans hhd)
        rw [L.announce_entry]
        exact he
  · intro k hk hlt
    change k < L.placed + 1 at hlt
    rcases eq_or_ne k L.placed with rfl | hne
    · refine ⟨entries[e].value, ?_, fun hl => (hl.ne hlinked.symm).elim⟩
      rw [L.announce_entry, List.getElem?_modify, List.getElem?_eq_getElem hbound]
      simp
    · have hkp : k < L.placed := by omega
      obtain ⟨v, hv, hl⟩ := ring.key k hk (hkp.trans_le ring.placed_le)
      refine ⟨v, ?_, hl⟩
      rw [L.announce_entry_of_ne _ _ hne, List.getElem?_modify, hv]
      simp [(ring.entry_ne hr hk hkp).symm]

def Spare (entries : List BlockIndexEntry) (L : Layout) : Prop :=
  L.announced = L.placed ∨ L.announced = L.placed + 1 ∧
    ∃ key, entries[L.entry L.placed]? = some ⟨key, none⟩

lemma Ring.slot_placed (ring : Ring entries headers cap L) {header : BlockIndexHeader} {e : ℕ}
    (hh : headers.getLast? = some header)
    (he : header.index[L.slot (headers.length - 1) L.placed]? = some e)
    (ha : L.announced = L.placed + 1) : e = L.entry L.placed := by
  obtain ⟨header', hh', -, ok⟩ := ring.last
  obtain rfl := Option.some.inj (hh.symm.trans hh')
  have hs := ok.slot L.placed (ring.oldest_le.trans ring.linked_le) (by rw [ring.reach_last]; omega)
  exact Option.some.inj (he.symm.trans hs)

lemma Ring.reusable (ring : Ring entries headers cap L) {header : BlockIndexHeader} {e : ℕ}
    {entry : BlockIndexEntry} (hlinked : L.linked = L.placed)
    (hh : headers.getLast? = some header)
    (he : header.index[L.slot (headers.length - 1) L.placed]? = some e)
    (hentry : entries[e]? = some entry)
    (hfree : entry.key = invalidBlockBase ∨ entry.value = none) : Reusable L e := by
  rcases Nat.eq_or_lt_of_le ring.placed_le with ha | ha
  · refine .inl ⟨ha.symm, ?_⟩
    rintro k hk hlt rfl
    obtain ⟨header', hh', -, ok⟩ := ring.last
    obtain rfl := Option.some.inj (hh.symm.trans hh')
    have hreach := ring.reach_last
    have hwin := ok.window
    -- The block index is full and this is its oldest entry, which is in use.
    have hs := ok.slot k hk (by omega)
    have hslot := (List.getElem?_inj (by rw [ok.length]; exact L.slot_lt _ _) ok.nodup).mp
      (hs.trans he.symm)
    have hold : k = L.oldest := by
      by_contra hne
      have heq := L.slot_inj _ (o := L.oldest + 1) (by omega) (by omega) (by omega) (by omega) hslot
      omega
    subst hold
    obtain ⟨v, hv, hl⟩ := ring.key L.oldest le_rfl hlt
    obtain rfl := Option.some.inj (hentry.symm.trans hv)
    rcases hfree with hkey | hvalue
    · have hnat := congrArg BitVec.toNat hkey
      have hone : invalidBlockBase.toNat = 1 := rfl
      rw [hone, BitVec.toNat_ofNat] at hnat
      omega
    · exact ring.oldest_live (by omega) ((hl (by omega)).symm.trans hvalue)
  · have ha' : L.announced = L.placed + 1 := by have := ring.announced_le; omega
    exact .inr ⟨ha', ring.slot_placed hh he ha'⟩

lemma Spare.announced (spare : Spare entries L) (ring : Ring entries headers cap L)
    {header : BlockIndexHeader} {e : ℕ} {entry : BlockIndexEntry}
    (hh : headers.getLast? = some header)
    (he : header.index[L.slot (headers.length - 1) L.placed]? = some e)
    (hentry : entries[e]? = some entry) (hvalue : entry.value ≠ none) :
    L.announced = L.placed := by
  rcases spare with ha | ⟨ha, key, hkey⟩
  · exact ha
  · rw [← ring.slot_placed hh he ha, hentry] at hkey
    obtain rfl := Option.some.inj hkey
    exact absurd rfl hvalue

def Layout.moveTail (L : Layout) (h p : ℕ) : Layout :=
  { L with placed := p, mark := Function.update L.mark h p }

lemma Layout.moveTail_mark (L : Layout) (h p : ℕ) : (L.moveTail h p).mark h = p :=
  Function.update_self ..

lemma Layout.moveTail_mark_of_ne (L : Layout) {h h' : ℕ} (p : ℕ) (hh : h' ≠ h) :
    (L.moveTail h p).mark h' = L.mark h' :=
  Function.update_of_ne hh ..

lemma Ring.moveTail (ring : Ring entries headers cap L) {p : ℕ} {t : Index}
    (hlinked : L.linked ≤ p) (hle : p ≤ L.announced) (hlt : L.announced ≤ p + 1)
    (ht : t.toNat < 2 ^ L.size (headers.length - 1))
    (hslot : (t.toNat + 1) % 2 ^ L.size (headers.length - 1) = L.slot (headers.length - 1) p) :
    Ring entries (headers.modify (headers.length - 1) fun h => { h with tail := t }) cap
      (L.moveTail (headers.length - 1) p) := by
  refine {
    nonempty := by simpa using ring.nonempty
    oldest_le := ring.oldest_le
    linked_le := hlinked
    placed_le := hle
    announced_le := hlt
    live := ring.live
    oldest_live := ring.oldest_live
    header := ?_
    reach_last := by
      rw [List.length_modify]
      exact ring.reach_last
    mark_last := by
      rw [List.length_modify]
      exact L.moveTail_mark _ p
    capacity := by
      rw [List.length_modify]
      exact ring.capacity
    key := ring.key }
  intro h hd hhd
  rw [List.getElem?_modify, Option.map_eq_map, Option.map_eq_some_iff] at hhd
  obtain ⟨header, hh, rfl⟩ := hhd
  have ok := ring.header h header hh
  split_ifs with heq
  · subst heq
    exact { ok with
      mark_le := by rw [L.moveTail_mark]; exact hle.trans ring.reach_last.ge
      tail_lt := ht
      tail := by rw [L.moveTail_mark]; exact hslot }
  · have hmark := L.moveTail_mark_of_ne p (Ne.symm heq)
    exact { ok with
      mark_le := hmark.le.trans ok.mark_le
      tail := by rw [hmark]; exact ok.tail }

lemma Ring.place (ring : Ring entries headers cap L) {t : Index}
    (ha : L.announced = L.placed + 1) (hlinked : L.linked = L.placed)
    (ht : t.toNat = L.slot (headers.length - 1) L.placed) :
    Ring entries (headers.modify (headers.length - 1) fun h => { h with tail := t }) cap
      (L.moveTail (headers.length - 1) (L.placed + 1)) := by
  apply ring.moveTail (by omega) ha.ge (by omega)
  · rw [ht]
    exact L.slot_lt _ _
  · rw [ht, L.slot_succ]

lemma Ring.rewind (ring : Ring entries headers cap L) {header : BlockIndexHeader}
    (hh : headers.getLast? = some header) (ha : L.announced = L.placed)
    (hlinked : L.linked + 1 = L.placed) :
    Ring entries
      (headers.modify (headers.length - 1) fun h => { h with tail := header.prevTail }) cap
      (L.moveTail (headers.length - 1) L.linked) := by
  obtain ⟨header', hh', -, ok⟩ := ring.last
  obtain rfl := Option.some.inj (hh.symm.trans hh')
  have hsize := ok.size_le
  have hlt := ok.tail_lt
  have htail := ok.tail
  rw [ring.mark_last, ← hlinked, ← L.slot_succ] at htail
  have heq := Nat.ModEq.add_right_cancel' 1 htail
  rw [Nat.ModEq, Nat.mod_eq_of_lt hlt, Nat.mod_eq_of_lt (L.slot_lt _ _)] at heq
  have hone : (1 : Index).toNat = 1 := rfl
  have hprev : header.prevTail.toNat =
      (2 ^ 64 - 1 + header.tail.toNat) % 2 ^ L.size (headers.length - 1) := by
    rw [BlockIndexHeader.prevTail, ok.capacity, toNat_and_sub_one _ (by omega), BitVec.toNat_sub,
      hone, Nat.mod_mod_of_dvd _ (Nat.pow_dvd_pow 2 (by omega))]
  have hdvd : 2 ^ L.size (headers.length - 1) ∣ 2 ^ 64 := Nat.pow_dvd_pow 2 (by omega)
  apply ring.moveTail le_rfl (by omega) (by omega)
  · rw [hprev]
    exact Nat.mod_lt _ (Nat.two_pow_pos _)
  · obtain ⟨m, hm⟩ := hdvd
    have hsum : 2 ^ 64 - 1 + header.tail.toNat + 1 =
        header.tail.toNat + 2 ^ L.size (headers.length - 1) * m := by omega
    rw [hprev, Nat.mod_add_mod, hsum, Nat.add_mul_mod_self_left, Nat.mod_eq_of_lt hlt, heq]

lemma Ring.setValue (ring : Ring entries headers cap L) {e l o : ℕ} {v : Option BlockId}
    {blk : ℕ → Option BlockId} (ho : L.oldest ≤ o) (hol : o ≤ l) (hl : l ≤ L.placed)
    (hlive : ∀ k b, blk k = some b → o ≤ k ∧ k < l) (hoL : o < l → blk o ≠ none)
    (hv : ∀ k, o ≤ k → k < l → L.entry k = e → v = blk k)
    (hne : ∀ k, o ≤ k → k < l → L.entry k ≠ e → k < L.linked ∧ blk k = L.block k) :
    Ring (entries.modify e fun entry => { entry with value := v }) headers cap
      { L with linked := l, oldest := o, block := blk } := by
  refine {
    nonempty := ring.nonempty
    oldest_le := hol
    linked_le := hl
    placed_le := ring.placed_le
    announced_le := ring.announced_le
    live := hlive
    oldest_live := hoL
    header := ?_
    reach_last := ring.reach_last
    mark_last := ring.mark_last
    capacity := ring.capacity
    key := ?_ }
  · intro h header hh
    have ok := ring.header h header hh
    exact { ok with
      bound := by simpa only [List.length_modify] using ok.bound
      window := ok.window.trans (Nat.add_le_add_right ho _)
      slot := fun k hk hlt => ok.slot k (ho.trans hk) hlt }
  · intro k hk hlt
    obtain ⟨w, hw, hwl⟩ := ring.key k (ho.trans hk) hlt
    rw [List.getElem?_modify, hw]
    rcases eq_or_ne (L.entry k) e with heq | hke
    · exact ⟨v, by simp [heq], fun hkl => hv k hk hkl heq⟩
    · refine ⟨w, by simp [Ne.symm hke], fun hkl => ?_⟩
      obtain ⟨hlinked, hblk⟩ := hne k hk hkl hke
      exact (hwl hlinked).trans hblk.symm

lemma Ring.clear (ring : Ring entries headers cap L) (ha : L.announced = L.placed + 1)
    (hlinked : L.linked = L.placed) :
    Ring (entries.modify (L.entry L.placed) fun entry => { entry with value := none }) headers cap
      L := by
  have hne (k : ℕ) (hk : L.oldest ≤ k) (hlt : k < L.linked) : L.entry k ≠ L.entry L.placed :=
    ring.entry_ne (.inr ⟨ha, rfl⟩) hk (hlinked ▸ hlt)
  exact ring.setValue le_rfl ring.oldest_le ring.linked_le ring.live ring.oldest_live
    (fun k hk hlt heq => absurd heq (hne k hk hlt)) (fun k _ hlt _ => ⟨hlt, rfl⟩)

def Layout.link (L : Layout) (b : BlockId) : Layout :=
  { L with linked := L.linked + 1, block := Function.update L.block L.linked (some b) }

lemma Ring.link (ring : Ring entries headers cap L) (b : BlockId)
    (hlinked : L.linked + 1 = L.placed) :
    Ring (entries.modify (L.entry L.linked) fun entry => { entry with value := some b }) headers
      cap (L.link b) := by
  have hold := ring.oldest_le
  have hplaced := ring.placed_le
  have hself : Function.update L.block L.linked (some b) L.linked = some b :=
    Function.update_self ..
  have hother {k : ℕ} (hk : k ≠ L.linked) :
      Function.update L.block L.linked (some b) k = L.block k := Function.update_of_ne hk ..
  apply ring.setValue le_rfl (by omega) hlinked.le
  · intro k b' hk
    rcases eq_or_ne k L.linked with rfl | hne
    · exact ⟨hold, Nat.lt_succ_self _⟩
    · rw [hother hne] at hk
      obtain ⟨hko, hkl⟩ := ring.live k b' hk
      exact ⟨hko, Nat.lt_succ_of_lt hkl⟩
  · intro _
    rcases hold.eq_or_lt with heq | hlt
    · rw [heq, hself]
      exact Option.some_ne_none b
    · rw [hother hlt.ne]
      exact ring.oldest_live hlt
  · intro k hk hlt heq
    obtain rfl := ring.entry_inj hk hold (by omega) (by omega) heq
    exact hself.symm
  · intro k hk hlt hne
    have hkl : k ≠ L.linked := fun heq => hne (congrArg L.entry heq)
    exact ⟨by omega, hother hkl⟩

lemma exists_oldest (blk : ℕ → Option BlockId) {o l : ℕ} (h : o ≤ l) : ∃ o', o ≤ o' ∧ o' ≤ l ∧
    (∀ k, o ≤ k → k < o' → blk k = none) ∧ (o' < l → blk o' ≠ none) := by
  induction h using Nat.decreasingInduction with
  | self =>
    exact ⟨l, le_rfl, le_rfl, fun k hk hlt => absurd hlt hk.not_gt,
      fun h => absurd h (lt_irrefl l)⟩
  | of_succ o hlt ih =>
    by_cases ho : blk o = none
    · obtain ⟨o', hle, hl, hnone, hlive⟩ := ih
      refine ⟨o', by omega, hl, fun k hk hko => ?_, hlive⟩
      rcases hk.eq_or_lt with rfl | hk
      · exact ho
      · exact hnone k hk hko
    · exact ⟨o, le_rfl, hlt.le, fun k hk hko => absurd hko hk.not_gt, fun _ => ho⟩

lemma Ring.release (ring : Ring entries headers cap L) {k : ℕ} {b : BlockId}
    (hb : L.block k = some b) : ∃ o, L.oldest ≤ o ∧
    (∀ k', L.oldest ≤ k' → k' < o → Function.update L.block k none k' = none) ∧
    Ring (entries.modify (L.entry k) fun entry => { entry with value := none }) headers cap
      { L with oldest := o, block := Function.update L.block k none } := by
  obtain ⟨hk, hkl⟩ := ring.live k b hb
  have hlinked := ring.linked_le
  have hplaced := ring.placed_le
  have hself : Function.update L.block k none k = none := Function.update_self ..
  have hother {k' : ℕ} (hne : k' ≠ k) : Function.update L.block k none k' = L.block k' :=
    Function.update_of_ne hne ..
  obtain ⟨o, hle, hol, hnone, hlive⟩ :=
    exists_oldest (Function.update L.block k none) ring.oldest_le
  refine ⟨o, hle, hnone, ?_⟩
  apply ring.setValue hle hol ring.linked_le
  · intro k' b' hk'
    have hne : k' ≠ k := by
      rintro rfl
      rw [hself] at hk'
      cases hk'
    obtain ⟨hko, hkl'⟩ := ring.live k' b' ((hother hne).symm.trans hk')
    refine ⟨?_, hkl'⟩
    by_contra hlt
    rw [hnone k' hko (by omega)] at hk'
    cases hk'
  · exact hlive
  · intro k' hk' hlt heq
    obtain rfl := ring.entry_inj (hle.trans hk') hk (by omega) (by omega) heq
    exact hself.symm
  · intro k' hk' hlt hne
    exact ⟨hlt, hother fun heq => hne (congrArg L.entry heq)⟩

lemma toNat_indexBytes {j : ℕ} (hj : j ≤ 58) :
    (ImplicitProducer.indexBytes (.ofNat 64 (2 ^ j)) (.ofNat 64 (2 ^ (j + 1)))).toNat =
      54 + 32 * 2 ^ j := by
  have hle : 2 ^ j ≤ 2 ^ 58 := Nat.pow_le_pow_right (by norm_num) hj
  have hconst : (40 + (8 - 1) : Index).toNat = 47 ∧ (8 - 1 : Index).toNat = 7 ∧
      (16 : Index).toNat = 16 ∧ (8 : Index).toNat = 8 := ⟨rfl, rfl, rfl, rfl⟩
  obtain ⟨h47, h7, h16, h8⟩ := hconst
  rw [ImplicitProducer.indexBytes, BitVec.toNat_add, BitVec.toNat_add, BitVec.toNat_add,
    BitVec.toNat_mul, BitVec.toNat_mul, BitVec.toNat_ofNat, BitVec.toNat_ofNat, h47, h7, h16, h8,
    pow_succ 2 j]
  generalize 2 ^ j = c at hle ⊢
  have hc : c % 2 ^ 64 = c := Nat.mod_eq_of_lt (by omega)
  have hc' : c * 2 % 2 ^ 64 = c * 2 := Nat.mod_eq_of_lt (by omega)
  rw [hc, hc']
  omega

section unrolled

variable {n h : ℕ} {header : BlockIndexHeader}

lemma HeaderOK.unrolled_eq (ok : HeaderOK n L h header) : header.unrolled =
    (List.range (2 ^ L.size h)).map fun i =>
      header.index.getD (L.slot h (L.mark h + i)) 0 := by
  have hsize := ok.size_le
  have hlt : 2 ^ L.size h < 2 ^ 64 := Nat.pow_lt_pow_right (by norm_num) (by omega)
  have hone : (1 : Index).toNat = 1 := rfl
  have hcap : header.capacity.toNat = 2 ^ L.size h := by
    rw [ok.capacity, BitVec.toNat_ofNat, Nat.mod_eq_of_lt hlt]
  have hdvd : 2 ^ L.size h ∣ 2 ^ 64 := Nat.pow_dvd_pow 2 (by omega)
  rw [BlockIndexHeader.unrolled, hcap]
  apply List.map_congr_left
  intro i _
  congr 1
  rw [ok.capacity, toNat_and_sub_one _ (by omega), BitVec.toNat_add, BitVec.toNat_add, hone,
    BitVec.toNat_ofNat, Nat.mod_mod_of_dvd _ hdvd]
  have htail : header.tail.toNat + 1 ≡ L.mark h + L.shift h [MOD 2 ^ L.size h] := by
    rw [Nat.ModEq, ok.tail, Layout.slot]
  calc ((header.tail.toNat + 1) % 2 ^ 64 + i % 2 ^ 64) % 2 ^ L.size h
      = (header.tail.toNat + 1 + i) % 2 ^ L.size h :=
        Nat.ModEq.add (Nat.mod_mod_of_dvd _ hdvd) (Nat.mod_mod_of_dvd _ hdvd)
    _ = (L.mark h + L.shift h + i) % 2 ^ L.size h := htail.add_right i
    _ = L.slot h (L.mark h + i) := by rw [Layout.slot, Nat.add_right_comm]

lemma HeaderOK.length_unrolled (ok : HeaderOK n L h header) :
    header.unrolled.length = 2 ^ L.size h := by
  rw [ok.unrolled_eq, List.length_map, List.length_range]

lemma HeaderOK.getD_slot (ok : HeaderOK n L h header) (k : ℕ) :
    header.index[L.slot h k]? = some (header.index.getD (L.slot h k) 0) := by
  have hlt : L.slot h k < header.index.length := by
    rw [ok.length]
    exact L.slot_lt h k
  rw [List.getD_eq_getElem?_getD, List.getElem?_eq_getElem hlt, Option.getD_some]

lemma HeaderOK.mem_unrolled (ok : HeaderOK n L h header) {e : ℕ} (he : e ∈ header.unrolled) :
    e ∈ header.index := by
  rw [ok.unrolled_eq, List.mem_map] at he
  obtain ⟨i, -, rfl⟩ := he
  exact List.mem_of_getElem? (ok.getD_slot _)

lemma HeaderOK.nodup_unrolled (ok : HeaderOK n L h header) : header.unrolled.Nodup := by
  rw [ok.unrolled_eq]
  refine List.nodup_range.map_on ?_
  intro i hi i' hi' heq
  rw [List.mem_range] at hi hi'
  have hs := ok.getD_slot (L.mark h + i)
  rw [heq, ← ok.getD_slot] at hs
  have hslot := (List.getElem?_inj (by rw [ok.length]; exact L.slot_lt _ _) ok.nodup).mp hs
  have hsame := L.slot_inj h (o := L.mark h) (by omega) (by omega) (by omega) (by omega) hslot
  omega

lemma HeaderOK.getElem?_unrolled (ok : HeaderOK n L h header) {k : ℕ} (hk : k < L.mark h)
    (hlt : L.mark h ≤ k + 2 ^ L.size h) :
    header.unrolled[2 ^ L.size h - (L.mark h - k)]? = header.index[L.slot h k]? := by
  have hpos := Nat.two_pow_pos (L.size h)
  have hsum : L.mark h + (2 ^ L.size h - (L.mark h - k)) = k + 2 ^ L.size h := by omega
  have hslot : L.slot h (k + 2 ^ L.size h) = L.slot h k := by
    rw [Layout.slot, Layout.slot, Nat.add_right_comm, Nat.add_mod_right]
  rw [ok.unrolled_eq, List.getElem?_map, List.getElem?_range (by omega), Option.map_some, hsum,
    hslot, ok.getD_slot]

end unrolled

def Layout.grow (L : Layout) (h : ℕ) : Layout :=
  { L with
    size := Function.update L.size (h + 1) (L.size h + 1)
    shift := Function.update L.shift (h + 1)
      (2 ^ L.size h + (2 ^ (L.size h + 1) - L.placed % 2 ^ (L.size h + 1)))
    mark := Function.update L.mark (h + 1) L.placed
    reach := Function.update L.reach (h + 1) L.placed }

section grow

variable (L : Layout) (h : ℕ)

@[simp] lemma Layout.grow_size : (L.grow h).size (h + 1) = L.size h + 1 := Function.update_self ..

@[simp] lemma Layout.grow_mark : (L.grow h).mark (h + 1) = L.placed := Function.update_self ..

@[simp] lemma Layout.grow_reach : (L.grow h).reach (h + 1) = L.placed := Function.update_self ..

lemma Layout.grow_slot {k : ℕ} (hk : k ≤ L.placed) (hlt : L.placed ≤ k + 2 ^ L.size h) :
    (L.grow h).slot (h + 1) k = 2 ^ L.size h - (L.placed - k) := by
  have hpos := Nat.two_pow_pos (L.size h)
  rw [Layout.slot, grow_size]
  simp only [grow, Function.update_self]
  rw [pow_succ]
  generalize 2 ^ L.size h = c at hpos hlt ⊢
  have hdiv := Nat.div_add_mod L.placed (c * 2)
  have hmod := Nat.mod_lt L.placed (y := c * 2) (by omega)
  have hsum : k + (c + (c * 2 - L.placed % (c * 2))) =
      c - (L.placed - k) + c * 2 * (L.placed / (c * 2) + 1) := by
    rw [mul_add, mul_one]
    omega
  rw [hsum, Nat.add_mul_mod_self_left, Nat.mod_eq_of_lt (by omega)]

lemma Layout.grow_headerOK {h' n m : ℕ} {header : BlockIndexHeader} (hne : h' ≠ h + 1)
    (hle : n ≤ m) (ok : HeaderOK n L h' header) : HeaderOK m (L.grow h) h' header := by
  have hsize : (L.grow h).size h' = L.size h' := Function.update_of_ne hne ..
  have hmark : (L.grow h).mark h' = L.mark h' := Function.update_of_ne hne ..
  have hreach : (L.grow h).reach h' = L.reach h' := Function.update_of_ne hne ..
  have hslot (k : ℕ) : (L.grow h).slot h' k = L.slot h' k := by
    rw [Layout.slot, Layout.slot, hsize]
    simp only [grow, Function.update_of_ne hne]
  exact {
    size_le := hsize.le.trans ok.size_le
    capacity := by rw [hsize, ok.capacity]
    length := by rw [hsize, ok.length]
    nodup := ok.nodup
    bound := fun e he => (ok.bound e he).trans_le hle
    mark_le := by rw [hmark, hreach]; exact ok.mark_le
    reach_le := hreach.le.trans ok.reach_le
    tail_lt := by rw [hsize]; exact ok.tail_lt
    tail := by rw [hsize, hslot, hmark]; exact ok.tail
    window := by rw [hsize, hreach]; exact ok.window
    slot := fun k hk hlt => by rw [hslot]; exact ok.slot k hk (hreach ▸ hlt) }

end grow

lemma Ring.grow (ring : Ring entries headers cap L) {header : BlockIndexHeader}
    (hh : headers.getLast? = some header) (ha : L.announced = L.placed)
    (garbage : Option BlockId) (hsize : L.size (headers.length - 1) ≤ 57) :
    Ring
      (entries ++ List.replicate (2 ^ L.size (headers.length - 1)) ⟨invalidBlockBase, garbage⟩)
      (headers ++ [{
        capacity := cap
        tail := (header.capacity - 1) &&& (cap - 1)
        index := header.unrolled ++
          List.range' entries.length (2 ^ L.size (headers.length - 1)) }])
      (cap <<< 1) (L.grow (headers.length - 1)) := by
  obtain ⟨header', hh', hget, ok⟩ := ring.last
  obtain rfl := Option.some.inj (hh.symm.trans hh')
  have hreach := ring.reach_last
  have hmark := ring.mark_last
  have hcap := ring.capacity
  have hwin := ok.window
  have hpos : 0 < headers.length := List.length_pos_iff.mpr ring.nonempty
  have hlen : headers.length - 1 + 1 = headers.length := by omega
  have hold := ring.oldest_le.trans ring.linked_le
  generalize hl : headers.length - 1 = h at *
  have hjlt : (2 : ℕ) ^ (L.size h + 1) < 2 ^ 64 := Nat.pow_lt_pow_right (by norm_num) (by omega)
  have hjpos := Nat.two_pow_pos (L.size h)
  have hlength : (header.unrolled ++ List.range' entries.length (2 ^ L.size h)).length =
      2 ^ (L.size h + 1) := by
    rw [List.length_append, ok.length_unrolled, List.length_range', pow_succ]
    omega
  have hnew (header : BlockIndexHeader) : (headers ++ [header]).length - 1 = h + 1 := by
    rw [List.length_append, List.length_singleton]
    omega
  have hfull : (L.grow h).slot (h + 1) L.placed = 2 ^ L.size h := by
    rw [L.grow_slot h le_rfl (by omega)]
    omega
  have htail : ((header.capacity - 1) &&& (cap - 1)).toNat = 2 ^ L.size h - 1 := by
    have hone : (1 : Index).toNat = 1 := rfl
    rw [hcap, toNat_and_sub_one _ (by omega), ok.capacity, BitVec.toNat_sub, hone,
      BitVec.toNat_ofNat]
    rw [pow_succ 2 (L.size h)] at hjlt ⊢
    generalize (2 : ℕ) ^ L.size h = c at hjlt hjpos ⊢
    have hc : c % 2 ^ 64 = c := Nat.mod_eq_of_lt (by omega)
    have hs : (2 ^ 64 - 1 + c) % 2 ^ 64 = c - 1 := by omega
    rw [hc, hs, Nat.mod_eq_of_lt (by omega)]
  refine {
    nonempty := by simp
    oldest_le := ring.oldest_le
    linked_le := ring.linked_le
    placed_le := ring.placed_le
    announced_le := ring.announced_le
    live := ring.live
    oldest_live := ring.oldest_live
    header := ?_
    reach_last := by rw [hnew, L.grow_reach]; exact ha.symm
    mark_last := by rw [hnew, L.grow_mark]; rfl
    capacity := ?_
    key := ?_ }
  · intro h' header' hh'
    rcases Nat.lt_or_ge h' headers.length with hlt | hge
    · rw [List.getElem?_append_left hlt] at hh'
      exact L.grow_headerOK h (by omega) (by simp) (ring.header h' header' hh')
    · have hlast : h' = h + 1 := by
        have hsome := (List.getElem?_eq_some_iff.mp hh').1
        rw [List.length_append, List.length_singleton] at hsome
        omega
      subst hlast
      rw [hlen, List.getElem?_concat_length] at hh'
      obtain rfl := Option.some.inj hh'
      refine {
        size_le := by rw [L.grow_size]; omega
        capacity := by rw [L.grow_size]; exact hcap
        length := by rw [L.grow_size]; exact hlength
        nodup := ?_
        bound := ?_
        mark_le := by rw [L.grow_mark, L.grow_reach]
        reach_le := by rw [L.grow_reach]; exact ha.ge
        tail_lt := by rw [L.grow_size, htail, pow_succ]; omega
        tail := ?_
        window := ?_
        slot := ?_ }
      · refine List.nodup_append'.mpr ⟨ok.nodup_unrolled, List.nodup_range', ?_⟩
        intro e he he'
        have hlt := ok.bound e (ok.mem_unrolled he)
        have hge := (List.mem_range'_1.mp he').1
        omega
      · intro e he
        rw [List.length_append, List.length_replicate]
        rcases List.mem_append.mp he with he | he
        · have hlt := ok.bound e (ok.mem_unrolled he)
          omega
        · exact (List.mem_range'_1.mp he).2
      · rw [L.grow_size, L.grow_mark, hfull, htail, pow_succ, Nat.sub_add_cancel hjpos,
          Nat.mod_eq_of_lt (by omega)]
      · rw [L.grow_reach, L.grow_size, pow_succ]
        change L.placed ≤ L.oldest + _
        omega
      · intro k hk hlt
        rw [L.grow_reach] at hlt
        have hkw : L.placed ≤ k + 2 ^ L.size h := by
          change L.oldest ≤ k at hk
          omega
        rw [L.grow_slot h hlt.le hkw, List.getElem?_append_left (by rw [ok.length_unrolled]; omega),
          ← hmark, ok.getElem?_unrolled (by omega) (by omega)]
        exact ok.slot k hk (by omega)
  · rw [hnew, L.grow_size, hcap]
    apply BitVec.eq_of_toNat_eq
    rw [BitVec.toNat_shiftLeft, BitVec.toNat_ofNat, BitVec.toNat_ofNat, Nat.shiftLeft_eq, pow_one,
      Nat.mod_mul_mod, ← pow_succ]
  · intro k hk hlt
    obtain ⟨v, hv, hkl⟩ := ring.key k hk hlt
    refine ⟨v, ?_, hkl⟩
    change (entries ++ _)[L.entry k]? = _
    rw [List.getElem?_append_left (List.getElem?_eq_some_iff.mp hv).1]
    exact hv

lemma newBlockIndex_spec {producer producer' : ImplicitProducer} {granted : Bool}
    {garbage : Option BlockId}
    (ring : Ring producer.entries producer.headers producer.nextBlockIndexCapacity L)
    (ha : L.announced = L.placed) (hn : producer.newBlockIndex granted garbage = some producer') :
    ∃ header, Ring producer'.entries producer'.headers producer'.nextBlockIndexCapacity
        (L.grow (producer.headers.length - 1)) ∧
      producer'.headers.getLast? = some header ∧
      header.index[header.nextTail.toNat]? = some producer.entries.length ∧
      producer' = { producer with
        entries := producer'.entries
        headers := producer'.headers
        nextBlockIndexCapacity := producer'.nextBlockIndexCapacity } ∧
      producer.entries <+: producer'.entries ∧ producer.headers <+: producer'.headers := by
  obtain ⟨header, hh, hget, ok⟩ := ring.last
  have hsize := ok.size_le
  have hlt : 2 ^ L.size (producer.headers.length - 1) < 2 ^ 64 :=
    Nat.pow_lt_pow_right (by norm_num) (by omega)
  have hcap : header.capacity.toNat = 2 ^ L.size (producer.headers.length - 1) := by
    rw [ok.capacity, BitVec.toNat_ofNat, Nat.mod_eq_of_lt hlt]
  simp only [ImplicitProducer.newBlockIndex, hh, Option.elim_some, hcap,
    Option.ite_none_right_eq_some, Option.some.injEq] at hn
  obtain ⟨hm, rfl⟩ := hn
  have hgrant : L.size (producer.headers.length - 1) ≤ 57 := by
    rw [ok.capacity, ring.capacity, ImplicitProducer.malloc, Bool.and_eq_true,
      decide_eq_true_eq, toNat_indexBytes hsize] at hm
    by_contra hgt
    have heq : L.size (producer.headers.length - 1) = 58 := by omega
    rw [heq] at hm
    omega
  have ring' := ring.grow hh ha garbage hgrant
  have hpos : 0 < producer.headers.length := List.length_pos_iff.mpr ring.nonempty
  have hlen : producer.headers.length - 1 + 1 = producer.headers.length := by omega
  refine ⟨_, ring', List.getLast?_concat, ?_, rfl, List.prefix_append .., List.prefix_append ..⟩
  have ok' := ring'.header (producer.headers.length - 1 + 1) _
    (by rw [hlen]; exact List.getElem?_concat_length)
  have hpow := Nat.two_pow_pos (L.size (producer.headers.length - 1))
  rw [ok'.toNat_nextTail, L.grow_mark, L.grow_slot _ le_rfl (by omega), Nat.sub_self, Nat.sub_zero,
    List.getElem?_append_right (ok.length_unrolled).le, ok.length_unrolled, Nat.sub_self,
    List.getElem?_range' hpow, mul_zero, add_zero]

end Ring

def Layout.initial : Layout where
  announced := 0
  placed := 0
  linked := 0
  oldest := 0
  entry := fun _ => 0
  block := fun _ => none
  size := fun _ => 5
  shift := fun _ => 0
  mark := fun _ => 0
  reach := fun _ => 0

lemma construct_eq (garbage : Option BlockId) : ImplicitProducer.construct true garbage =
    { ImplicitProducer.initial with
      entries := List.replicate 32 ⟨invalidBlockBase, garbage⟩
      headers := [⟨32, 31, List.range' 0 32⟩]
      nextBlockIndexCapacity := 64 } :=
  rfl

lemma ring_construct (garbage : Option BlockId) :
    Ring (ImplicitProducer.construct true garbage).entries
      (ImplicitProducer.construct true garbage).headers
      (ImplicitProducer.construct true garbage).nextBlockIndexCapacity .initial := by
  rw [construct_eq]
  refine {
    nonempty := List.cons_ne_nil _ _
    oldest_le := le_rfl
    linked_le := le_rfl
    placed_le := le_rfl
    announced_le := Nat.zero_le _
    live := fun k b hb => by cases hb
    oldest_live := fun hlt => absurd hlt (lt_irrefl _)
    header := ?_
    reach_last := rfl
    mark_last := rfl
    capacity := rfl
    key := fun k _ hlt => absurd hlt (Nat.not_lt_zero _) }
  intro h header hh
  obtain ⟨rfl, rfl⟩ : h = 0 ∧ header = ⟨32, 31, List.range' 0 32⟩ := by
    cases h with
    | zero => exact ⟨rfl, (Option.some.inj hh).symm⟩
    | succ h => cases hh
  refine {
    size_le := by decide
    capacity := rfl
    length := rfl
    nodup := List.nodup_range'
    bound := ?_
    mark_le := le_rfl
    reach_le := le_rfl
    tail_lt := by decide
    tail := rfl
    window := Nat.zero_le _
    slot := fun k _ hlt => absurd hlt (Nat.not_lt_zero _) }
  intro e he
  simpa using (List.mem_range'_1.mp he).2

end Keron.Queue
