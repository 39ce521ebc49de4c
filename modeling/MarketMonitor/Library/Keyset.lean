import Mathlib.Data.List.Sort
import Mathlib.Order.Basic

/-!
# Keyset pagination

A listing is read in pages : each asks for one row more than it shows, in the order of a
key, from the rows whose key is past that of the last row shown. Where the keys of the rows
differ, following the pages from the start ends, and their items are the rows in the order of
their keys.
-/

namespace Keyset

/-- A page : its items and the cursor of the next one, if there is one. -/
structure Page (ρ γ : Type) where
  items : List ρ
  next : Option γ

variable {ρ κ γ ε : Type} [LinearOrder κ]

/-- The rows in the order of their keys. -/
def ordered (key : ρ → κ) (rows : List ρ) : List ρ :=
  rows.insertionSort fun a b => key a ≤ key b

/-- The first `n` rows, in order, whose key is past `after`. -/
def fetch (key : ρ → κ) (rows : List ρ) (after : κ) (n : ℕ) : List ρ :=
  (ordered key (rows.filter fun r => after < key r)).take n

/-- The page of `limit` rows past `after`. -/
def page (key : ρ → κ) (encode : ρ → γ) (rows : List ρ) (limit : ℕ) (after : κ) : Page ρ γ :=
  let fetched := fetch key rows after (limit + 1)
  let visible := fetched.take limit
  ⟨visible, if limit < fetched.length then visible.getLast?.map encode else none⟩

/-- The pages a reader sees who starts at a cursor and follows the next ones to the last. -/
inductive Follows (get : Option γ → Except ε (Page ρ γ)) : Option γ → List (List ρ) → Prop
  | last {cursor : Option γ} {items : List ρ} (h : get cursor = .ok ⟨items, none⟩) :
      Follows get cursor [items]
  | next {cursor : Option γ} {items : List ρ} {c : γ} {pages : List (List ρ)}
      (h : get cursor = .ok ⟨items, some c⟩) (hrest : Follows get (some c) pages) :
      Follows get cursor (items :: pages)

variable {get : Option γ → Except ε (Page ρ γ)}

/-- Who follows the pages from the start comes to the last one, and has seen the rows once, in
the order of their keys. -/
def Complete (get : Option γ → Except ε (Page ρ γ)) (key : ρ → κ) (rows : List ρ) : Prop :=
  ∃ pages, Follows get none pages ∧ pages.flatten.Perm rows ∧
    pages.flatten.Pairwise fun a b => key a < key b

/-- A reader sees the same pages each time. -/
theorem Follows.unique {cursor : Option γ} {pages pages' : List (List ρ)}
    (h : Follows get cursor pages) (h' : Follows get cursor pages') : pages = pages' := by
  induction h generalizing pages' with
  | last h =>
    cases h' with
    | last h' =>
      cases h.symm.trans h'
      rfl
    | next h' _ => cases h.symm.trans h'
  | next h _ ih =>
    cases h' with
    | last h' => cases h.symm.trans h'
    | next h' hrest' =>
      cases h.symm.trans h'
      rw [ih hrest']

/-! ## The order of the rows -/

section Order

variable {key : ρ → κ} {rows : List ρ} {after : κ}

theorem perm_ordered (key : ρ → κ) (rows : List ρ) : (ordered key rows).Perm rows :=
  List.perm_insertionSort _ rows

theorem mem_ordered {r : ρ} : r ∈ ordered key rows ↔ r ∈ rows := (perm_ordered key rows).mem_iff

/-- Rows whose keys differ are in strictly increasing order. -/
theorem pairwise_ordered (h : (rows.map key).Nodup) :
    (ordered key rows).Pairwise fun a b => key a < key b := by
  have hle : (ordered key rows).Pairwise fun a b => key a ≤ key b :=
    List.pairwise_insertionSort (fun a b : ρ => key a ≤ key b) rows
  have hne : (ordered key rows).Pairwise fun a b => key a ≠ key b :=
    List.pairwise_map.mp (((perm_ordered key rows).map key).nodup_iff.mpr h)
  exact (hle.and hne).imp fun hab => lt_of_le_of_ne hab.1 hab.2

/-- Two lists of the same rows in strictly increasing order are the same. -/
theorem eq_of_perm_of_pairwise {xs ys : List ρ} (hperm : xs.Perm ys)
    (hxs : xs.Pairwise fun a b => key a < key b) (hys : ys.Pairwise fun a b => key a < key b) :
    xs = ys :=
  List.Perm.eq_of_pairwise (fun _ _ _ _ hab hba => absurd hba (lt_asymm hab)) hxs hys hperm

/-- The rows past a key, in order, are those past it among the rows in order. -/
theorem ordered_filter (h : (rows.map key).Nodup) (after : κ) :
    ordered key (rows.filter fun r => after < key r) =
      (ordered key rows).filter fun r => after < key r := by
  have hsub : ((rows.filter fun r => after < key r).map key).Nodup :=
    h.sublist (List.filter_sublist.map key)
  refine eq_of_perm_of_pairwise ?_ (pairwise_ordered hsub)
    ((pairwise_ordered h).sublist List.filter_sublist)
  exact (perm_ordered key _).trans ((perm_ordered key rows).symm.filter _)

/-- Past the last of the first rows in order are the others. -/
theorem filter_past {xs : List ρ} (h : xs.Pairwise fun a b => key a < key b) {shown rest : List ρ}
    {r : ρ} (hxs : xs = shown ++ [r] ++ rest) :
    (xs.filter fun a => key r < key a) = rest := by
  subst hxs
  rw [List.pairwise_append] at h
  obtain ⟨hshown, hrest, hpast⟩ := h
  rw [List.pairwise_append] at hshown
  have hbefore : (shown ++ [r]).filter (fun a => key r < key a) = [] := by
    rw [List.filter_eq_nil_iff]
    intro a ha hlt
    rcases List.mem_append.mp ha with ha | ha
    · exact lt_asymm (hshown.2.2 a ha r (List.mem_singleton_self r)) (of_decide_eq_true hlt)
    · rw [List.mem_singleton.mp ha] at hlt
      exact lt_irrefl _ (of_decide_eq_true hlt)
  have hafter : rest.filter (fun a => key r < key a) = rest := by
    rw [List.filter_eq_self]
    intro a ha
    exact decide_eq_true (hpast r (List.mem_append_right _ (List.mem_singleton_self r)) a ha)
  rw [List.filter_append, hbefore, hafter, List.nil_append]

end Order

/-! ## Following the pages -/

section Following

variable {key : ρ → κ} {encode : ρ → γ} {rows : List ρ} {limit : ℕ}

/-- A page shows the first of the rows that are left, and the last page all of them. -/
theorem page_cases (encode : ρ → γ) (hkeys : (rows.map key).Nodup) (hlimit : 1 ≤ limit) {after : κ}
    {left : List ρ} (hleft : ordered key (rows.filter fun r => after < key r) = left) :
    (left.length ≤ limit ∧ page key encode rows limit after = ⟨left, none⟩) ∨
      ∃ shown r rest, left = shown ++ [r] ++ rest ∧ rest ≠ [] ∧
        page key encode rows limit after = ⟨shown ++ [r], some (encode r)⟩ ∧
        ordered key (rows.filter fun a => key r < key a) = rest := by
  have hfetch : fetch key rows after (limit + 1) = left.take (limit + 1) := by rw [fetch, hleft]
  rw [page, hfetch]
  simp only [List.take_take, List.length_take, Nat.min_eq_left (Nat.le_succ limit)]
  rcases Nat.lt_or_ge limit left.length with hlt | hge
  · have hne : left.take limit ≠ [] := by
      rw [← List.length_pos_iff, List.length_take]
      omega
    obtain ⟨shown, r, hshown⟩ := (List.eq_nil_or_concat (left.take limit)).resolve_left hne
    rw [List.concat_eq_append] at hshown
    have hsplit : left = shown ++ [r] ++ left.drop limit := by
      rw [← hshown, List.take_append_drop]
    have hpast : after < key r := by
      have hmem : r ∈ left := by rw [hsplit]; simp
      rw [← hleft, mem_ordered] at hmem
      exact of_decide_eq_true (List.mem_filter.mp hmem).2
    have hrows : (rows.filter fun a => key r < key a) =
        (rows.filter fun a => after < key a).filter fun a => key r < key a := by
      rw [List.filter_filter]
      refine List.filter_congr fun a _ => ?_
      by_cases ha : key r < key a
      · simp [ha, hpast.trans ha]
      · simp [ha]
    have hsub : ((rows.filter fun a => after < key a).map key).Nodup :=
      hkeys.sublist (List.filter_sublist.map key)
    refine .inr ⟨shown, r, left.drop limit, hsplit, ?_, ?_, ?_⟩
    · rw [← List.length_pos_iff, List.length_drop]
      omega
    · rw [if_pos (by omega), hshown, List.getLast?_concat]
      rfl
    · rw [hrows, ordered_filter hsub, hleft]
      exact filter_past (hleft ▸ pairwise_ordered hsub) hsplit
  · refine .inl ⟨hge, ?_⟩
    rw [if_neg (by omega), List.take_of_length_le hge]

/-- Following the pages of a listing from a key reaches the last one, and shows every row past
the key once, in order. -/
theorem follows_from (hkeys : (rows.map key).Nodup) (hlimit : 1 ≤ limit)
    (hget : ∀ r ∈ rows, get (some (encode r)) = .ok (page key encode rows limit (key r)))
    (left : List ρ) {cursor : Option γ} {after : κ}
    (hcursor : get cursor = .ok (page key encode rows limit after))
    (hleft : ordered key (rows.filter fun r => after < key r) = left) :
    ∃ pages, Follows get cursor pages ∧ pages.flatten = left := by
  induction hn : left.length using Nat.strong_induction_on generalizing left cursor after with
  | _ n ih =>
    rcases page_cases encode hkeys hlimit hleft with
      ⟨-, hpage⟩ | ⟨shown, r, rest, hsplit, -, hpage, hrest⟩
    · exact ⟨[left], .last (hpage ▸ hcursor), List.flatten_singleton⟩
    · have hr : r ∈ rows := by
        have hmem : r ∈ left := by rw [hsplit]; simp
        rw [← hleft, mem_ordered] at hmem
        exact List.mem_of_mem_filter hmem
      have hshorter : rest.length < n := by
        rw [← hn, hsplit]
        simp
        omega
      obtain ⟨pages, hpages, hflat⟩ := ih rest.length hshorter rest (hget r hr) hrest rfl
      refine ⟨(shown ++ [r]) :: pages, .next (hpage ▸ hcursor) hpages, ?_⟩
      rw [List.flatten_cons, hflat, hsplit]

/-- The pages of the rows past a key that comes before all are complete. -/
theorem complete_of_page (hkeys : (rows.map key).Nodup) (hlimit : 1 ≤ limit) {start : κ}
    (hstart : ∀ r ∈ rows, start < key r)
    (hfirst : get none = .ok (page key encode rows limit start))
    (hget : ∀ r ∈ rows, get (some (encode r)) = .ok (page key encode rows limit (key r))) :
    Complete get key rows := by
  have hall : (rows.filter fun r => start < key r) = rows :=
    List.filter_eq_self.mpr fun r hr => decide_eq_true (hstart r hr)
  obtain ⟨pages, hpages, hflat⟩ := follows_from hkeys hlimit hget (ordered key rows) hfirst
    (by rw [hall])
  exact ⟨pages, hpages, hflat ▸ perm_ordered key rows, hflat ▸ pairwise_ordered hkeys⟩

end Following

/-! ## Rows of a query -/

section Query

variable {α β κ' : Type}

/-- The first rows past a key, each shown as an item with its key. -/
theorem map_fetch {shown : ρ → β} {key : ρ → κ} (itemKey : β → κ) {rows : List ρ}
    (h : ∀ r ∈ rows, itemKey (shown r) = key r) (after : κ) (n : ℕ) :
    (fetch key rows after n).map shown = fetch itemKey (rows.map shown) after n := by
  have hfilter : (rows.map shown).filter (fun b => after < itemKey b) =
      (rows.filter fun r => after < key r).map shown := by
    rw [List.filter_map]
    refine congrArg (List.map shown) (List.filter_congr fun r hr => ?_)
    simp only [Function.comp_apply, h r hr]
  rw [fetch, fetch, List.map_take, hfilter, ordered, ordered]
  refine congrArg (List.take n) (List.map_insertionSort _ _ _ _ fun a ha b hb => ?_)
  rw [h a (List.mem_of_mem_filter ha), h b (List.mem_of_mem_filter hb)]

/-- Rows that each stand for one row of a table with unique keys have unique keys. -/
theorem nodup_map_flatMap {as : List α} {key : α → κ'} {rowKey : β → κ'} {f : α → List β}
    (hkeys : (as.map key).Nodup) (hkey : ∀ a ∈ as, ∀ b ∈ f a, rowKey b = key a)
    (hone : ∀ a ∈ as, (f a).length ≤ 1) : ((as.flatMap f).map rowKey).Nodup := by
  induction as with
  | nil => exact List.nodup_nil
  | cons a as ih =>
    rw [List.map_cons, List.nodup_cons] at hkeys
    rw [List.flatMap_cons, List.map_append, List.nodup_append]
    refine ⟨?_, ih hkeys.2 (fun a' ha' => hkey a' (List.mem_cons_of_mem a ha'))
      fun a' ha' => hone a' (List.mem_cons_of_mem a ha'), ?_⟩
    · have hlen := hone a List.mem_cons_self
      rcases hf : f a with _ | ⟨b, _ | ⟨b', bs⟩⟩
      · exact List.nodup_nil
      · exact List.nodup_singleton _
      · simp [hf] at hlen
    · rintro k hk k' hk' rfl
      obtain ⟨b, hb, rfl⟩ := List.mem_map.mp hk
      obtain ⟨b', hb', heq⟩ := List.mem_map.mp hk'
      obtain ⟨a', ha', hb'⟩ := List.mem_flatMap.mp hb'
      refine hkeys.1 (List.mem_map.mpr ⟨a', ha', ?_⟩)
      rw [← hkey a List.mem_cons_self b hb, ← hkey a' (List.mem_cons_of_mem a ha') b' hb', heq]

/-- At most one row of a table with unique keys satisfies what determines the key. -/
theorem length_filter_le_one {bs : List β} {key : β → κ'} (hkeys : (bs.map key).Nodup)
    {p : β → Bool} (h : ∀ b ∈ bs, ∀ b' ∈ bs, p b → p b' → key b = key b') :
    (bs.filter p).length ≤ 1 := by
  have hnodup : ((bs.filter p).map key).Nodup := hkeys.sublist (List.filter_sublist.map key)
  rcases hf : bs.filter p with _ | ⟨b, _ | ⟨b', rest⟩⟩
  · exact Nat.zero_le _
  · exact le_rfl
  · have hmem : ∀ c ∈ [b, b'], c ∈ bs ∧ p c := fun c hc =>
      List.mem_filter.mp (hf ▸ (List.mem_append_left rest hc : c ∈ [b, b'] ++ rest))
    rw [hf] at hnodup
    have hne : key b ≠ key b' := by
      intro heq
      simp [heq] at hnodup
    obtain ⟨hb, hpb⟩ := hmem b (by simp)
    obtain ⟨hb', hpb'⟩ := hmem b' (by simp)
    exact absurd (h b hb b' hb' hpb hpb') hne

theorem length_flatMap_le_one {as : List α} {f : α → List β} (has : as.length ≤ 1)
    (hone : ∀ a ∈ as, (f a).length ≤ 1) : (as.flatMap f).length ≤ 1 := by
  rcases as with _ | ⟨a, _ | ⟨a', as⟩⟩
  · exact Nat.zero_le _
  · rw [List.flatMap_singleton]
    exact hone a (List.mem_singleton_self a)
  · simp at has

/-- A key that tells the same rows apart as a unique one is unique. -/
theorem nodup_map_of_imp {bs : List β} {key : β → κ'} {κ'' : Type} {key' : β → κ''}
    (hkeys : (bs.map key).Nodup)
    (h : ∀ b ∈ bs, ∀ b' ∈ bs, key' b = key' b' → key b = key b') : (bs.map key').Nodup :=
  (List.Nodup.of_map key hkeys).map_on fun b hb b' hb' heq =>
    List.inj_on_of_nodup_map hkeys hb hb' (h b hb b' hb' heq)

end Query

end Keyset
