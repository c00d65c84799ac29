import RetroLens.Lib.Selection
import RetroLens.Store.Startup

/-!
# The newest photos, oldest first

The scan of `rebuildIndex` keeps the 48 entries with the largest timestamps of
all that the names give, whatever the order of the names, and the exchange sort
puts them in order.
-/

namespace RetroLens.Store

open Text Disk RetroLens.Core Selection

def PhotoEntry.stamp (e : PhotoEntry) : Int := e.timestampMs.toInt

variable {card : Card Path} {mtime : Bytes → Int} {names : List Bytes} {e entry : PhotoEntry}

/-! ## One entry more -/

/-- The search ends at a least entry. -/
theorem oldestFrom_least (b : PhotoEntry) (best : Nat) (seen l : List PhotoEntry)
    (hb : (seen ++ l)[best]? = some b) (hmin : ∀ e ∈ seen, b.stamp ≤ e.stamp) :
    ∃ m, (seen ++ l)[oldestFrom best b.timestampMs seen.length l]? = some m ∧
      ∀ e ∈ seen ++ l, m.stamp ≤ e.stamp := by
  induction l generalizing b best seen with
  | nil =>
    rw [List.append_nil] at hb ⊢
    exact ⟨b, hb, hmin⟩
  | cons x xs ih =>
    have hsplit : seen ++ x :: xs = seen ++ [x] ++ xs := by simp
    have hlen : seen.length + 1 = (seen ++ [x]).length := by simp
    unfold oldestFrom
    rw [hlen, hsplit]
    split
    · rename_i hlt
      have hx : x.stamp < b.stamp := Int64.lt_iff_toInt_lt.1 hlt
      refine ih _ _ _ (by simp) fun e he => ?_
      rcases List.mem_append.1 he with he | he
      · exact hx.le.trans (hmin e he)
      · obtain rfl := List.mem_singleton.1 he
        exact le_rfl
    · rename_i hlt
      have hx : b.stamp ≤ x.stamp := not_lt.1 fun h => hlt (Int64.lt_iff_toInt_lt.2 h)
      refine ih _ _ _ (by rw [← hsplit]; exact hb) fun e he => ?_
      rcases List.mem_append.1 he with he | he
      · exact hmin e he
      · obtain rfl := List.mem_singleton.1 he
        exact hx

theorem keepNewest_largest {seen : List PhotoEntry} {entries : Entries}
    (h : Largest PhotoEntry.stamp kMaxPhotoEntries seen entries.list) :
    Largest PhotoEntry.stamp kMaxPhotoEntries (seen ++ [entry])
      (keepNewest entry entries).list := by
  unfold keepNewest
  split
  · rename_i hroom
    exact h.room hroom
  rename_i hfull
  have hk : entries.list.length = kMaxPhotoEntries := le_antisymm entries.bound (not_lt.1 hfull)
  split
  · rename_i hnil
    rw [hnil] at hk
    cases hk
  rename_i first rest hcons
  dsimp only
  obtain ⟨m, hm, hleast⟩ := oldestFrom_least first 0 [first] rest rfl
    fun e he => by rw [List.mem_singleton.1 he]
  rw [List.singleton_append, ← hcons] at hm hleast
  rw [show ([first] : List PhotoEntry).length = 1 from rfl] at hm
  rw [hm]
  dsimp only
  split
  · rename_i hlt
    exact h.replace hk hm hleast (Int64.lt_iff_toInt_lt.1 hlt)
  · rename_i hlt
    refine h.skip hk fun y hy => ?_
    exact (not_lt.1 fun h => hlt (Int64.lt_iff_toInt_lt.2 h)).trans (hleast y hy)

/-! ## The sort -/

theorem exchangePass_least (x : PhotoEntry) (l : List PhotoEntry) :
    ∀ e ∈ x :: l, (exchangePass x l).1.stamp ≤ e.stamp := by
  induction l generalizing x with
  | nil =>
    intro e he
    rw [List.mem_singleton.1 he]
    exact le_rfl
  | cons y ys ih =>
    intro e he
    unfold exchangePass
    split
    · rename_i hlt
      have hy : y.stamp < x.stamp := Int64.lt_iff_toInt_lt.1 hlt
      rcases List.mem_cons.1 he with rfl | he
      · exact (ih y y (List.mem_cons_self ..)).trans hy.le
      · exact ih y e he
    · rename_i hlt
      have hx : x.stamp ≤ y.stamp := not_lt.1 fun h => hlt (Int64.lt_iff_toInt_lt.2 h)
      rcases List.mem_cons.1 he with rfl | he
      · exact ih e e (List.mem_cons_self ..)
      rcases List.mem_cons.1 he with rfl | he
      · exact (ih x x (List.mem_cons_self ..)).trans hx
      · exact ih x e (List.mem_cons_of_mem _ he)

/-- As many passes as there are entries put them in order. -/
theorem exchangeSort_sorted {n : Nat} {l : List PhotoEntry} (h : l.length ≤ n) :
    (exchangeSort n l).Pairwise fun a b => a.stamp ≤ b.stamp := by
  induction n generalizing l with
  | zero =>
    rw [List.eq_nil_of_length_eq_zero (Nat.le_zero.1 h)]
    exact .nil
  | succ n ih =>
    cases l with
    | nil => exact .nil
    | cons x xs =>
      refine .cons (fun e he => ?_) (ih ?_)
      · refine exchangePass_least x xs e ((exchangePass_perm x xs).mem_iff.1 ?_)
        exact List.mem_cons_of_mem _ ((exchangeSort_perm ..).mem_iff.1 he)
      · rw [exchangePass_length]
        exact Nat.le_of_succ_le_succ h

/-! ## The scan -/

/-- What the names stand for, of as many as are inspected. -/
def photosOf (card : Card Path) (mtime : Bytes → Int) (names : List Bytes) : List PhotoEntry :=
  (names.take 512).filterMap (photoOfName card mtime)

theorem foldl_largest (seen : List PhotoEntry) (held : Entries)
    (h : Largest PhotoEntry.stamp kMaxPhotoEntries seen held.list) :
    Largest PhotoEntry.stamp kMaxPhotoEntries (seen ++ names.filterMap (photoOfName card mtime))
      (names.foldl (fun entries name =>
        match photoOfName card mtime name with
        | none => entries
        | some entry => keepNewest entry entries) held).list := by
  induction names generalizing seen held with
  | nil =>
    rw [List.filterMap_nil, List.append_nil]
    exact h
  | cons name names ih =>
    rw [List.foldl_cons]
    cases hp : photoOfName card mtime name with
    | none =>
      rw [List.filterMap_cons_none hp]
      exact ih _ _ h
    | some entry =>
      rw [List.filterMap_cons_some hp, ← List.singleton_append, ← List.append_assoc]
      exact ih _ _ (keepNewest_largest h)

/-- **The scan keeps the newest of all that the names give.** -/
theorem scanPhotos_largest (card : Card Path) (mtime : Bytes → Int) (names : List Bytes) :
    Largest PhotoEntry.stamp kMaxPhotoEntries (photosOf card mtime names)
      (scanPhotos card mtime names).list :=
  (foldl_largest [] .empty .nil).perm (exchangeSort_perm ..)

theorem scanPhotos_sorted (card : Card Path) (mtime : Bytes → Int) (names : List Bytes) :
    (scanPhotos card mtime names).list.Pairwise fun a b => a.stamp ≤ b.stamp :=
  exchangeSort_sorted le_rfl

theorem mem_scanPhotos (h : e ∈ (scanPhotos card mtime names).list) :
    ∃ name ∈ names, photoOfName card mtime name = some e := by
  obtain ⟨name, hname, hp⟩ := List.mem_filterMap.1 ((scanPhotos_largest card mtime names).subset h)
  exact ⟨name, List.mem_of_mem_take hname, hp⟩

end RetroLens.Store
