/-
`Withdraw` takes exactly what is withdrawable.

The balance goes first.  What is still wanted comes from the owner's mandates, in the order
of `mandatesByCreatedAt`, and the loop over them is the library's `Greedy.fill` with what each
has available as its limit.  A second loop retires the mandates that were left with nothing.
Both are described mandate by mandate: what it loses, and whether it stays active.
-/
import QuietLine.Proofs.Matching
import QuietLine.Proofs.Nonces

namespace QuietLine

open Outcome MapSum MapRel
open Std (ExtTreeMap)

/-! ### The order of the mandates -/

/-- `m` comes before `m'` in `mandatesByCreatedAt`. -/
def Mandate.Older (m m' : Mandate) : Prop :=
  m.createdAt < m'.createdAt ∨ m.createdAt = m'.createdAt ∧ m.id < m'.id

/-- The comparison of `mandatesByCreatedAt`, on the entries it sorts. -/
abbrev notYounger (e e' : String × Mandate) : Prop :=
  if e.2.createdAt ≠ e'.2.createdAt then e.2.createdAt < e'.2.createdAt else ¬ e'.2.id < e.2.id

theorem notYounger_iff {e e' : String × Mandate} : notYounger e e' ↔
    e.2.createdAt < e'.2.createdAt ∨ e.2.createdAt = e'.2.createdAt ∧ e.2.id ≤ e'.2.id := by
  unfold notYounger
  by_cases htime : e.2.createdAt = e'.2.createdAt
  · rw [if_neg (not_not.mpr htime), String.not_lt]
    simp only [htime, Int.lt_irrefl, false_or, true_and]
  · rw [if_pos htime]
    simp only [htime, false_and, or_false]

instance : Std.Total notYounger where
  total e e' := by
    simp only [notYounger_iff]
    rcases lt_trichotomy e.2.createdAt e'.2.createdAt with hlt | heq | hgt
    · exact Or.inl (Or.inl hlt)
    · rcases String.le_total e.2.id e'.2.id with hle | hle
      · exact Or.inl (Or.inr ⟨heq, hle⟩)
      · exact Or.inr (Or.inr ⟨heq.symm, hle⟩)
    · exact Or.inr (Or.inl hgt)

instance : IsTrans (String × Mandate) notYounger where
  trans e e' e'' := by
    simp only [notYounger_iff]
    rintro (hlt | ⟨heq, hle⟩) (hlt' | ⟨heq', hle'⟩)
    · exact Or.inl (lt_trans hlt hlt')
    · exact Or.inl (heq' ▸ hlt)
    · exact Or.inl (heq ▸ hlt')
    · exact Or.inr ⟨heq.trans heq', String.le_trans hle hle'⟩

section Order

variable {range : RangeOrder} {s : State} {owner : String}

/-- The entries `mandatesByCreatedAt` sorts. -/
def ownedEntries (range : RangeOrder) (s : State) (owner : String) : List (String × Mandate) :=
  ((range.order s.mandates.keys).filterMap fun id =>
    s.mandates[id]?.map fun m => (id, m)).filter fun e => e.2.lender = toLower owner

theorem mandatesByCreatedAt_eq : mandatesByCreatedAt range s owner =
    ((ownedEntries range s owner).insertionSort notYounger).map Prod.fst := rfl

theorem mem_ownedEntries {id : String} {m : Mandate} : (id, m) ∈ ownedEntries range s owner ↔
    s.mandates[id]? = some m ∧ m.lender = toLower owner := by
  unfold ownedEntries
  rw [List.mem_filter, List.mem_filterMap]
  constructor
  · rintro ⟨⟨id', _, hget⟩, hlender⟩
    obtain ⟨m', hm', heq⟩ := Option.map_eq_some_iff.mp hget
    simp only [Prod.mk.injEq] at heq
    obtain ⟨rfl, rfl⟩ := heq
    exact ⟨hm', of_decide_eq_true hlender⟩
  · rintro ⟨hm, hlender⟩
    refine ⟨⟨id, (range.perm _).mem_iff.mpr ?_, by simp [hm]⟩, decide_eq_true hlender⟩
    rw [Std.ExtTreeMap.mem_keys, Std.ExtTreeMap.mem_iff_isSome_getElem?, hm]
    rfl

theorem mem_mandatesByCreatedAt {id : String} : id ∈ mandatesByCreatedAt range s owner ↔
    ∃ m, s.mandates[id]? = some m ∧ m.lender = toLower owner := by
  rw [mandatesByCreatedAt_eq, List.mem_map]
  constructor
  · rintro ⟨⟨id', m⟩, hmem, rfl⟩
    rw [List.mem_insertionSort, mem_ownedEntries] at hmem
    exact ⟨m, hmem⟩
  · rintro ⟨m, hm⟩
    refine ⟨(id, m), ?_, rfl⟩
    rw [List.mem_insertionSort, mem_ownedEntries]
    exact hm

theorem mandatesByCreatedAt_nodup : (mandatesByCreatedAt range s owner).Nodup := by
  rw [mandatesByCreatedAt_eq, ((List.perm_insertionSort _ _).map Prod.fst).nodup_iff]
  have hkeys : (range.order s.mandates.keys).Nodup :=
    (range.perm _).nodup_iff.mpr Std.ExtTreeMap.nodup_keys
  refine List.Nodup.sublist ?_ hkeys
  unfold ownedEntries
  refine (List.filter_sublist.map Prod.fst).trans ?_
  generalize range.order s.mandates.keys = keys
  induction keys with
  | nil => simp
  | cons id rest ih =>
      cases hm : s.mandates[id]? with
      | none => simpa [hm] using ih.cons id
      | some m => simpa [hm] using ih.cons_cons id

/-- Of two of the owner's mandates the older is visited first. -/
theorem mandatesByCreatedAt_sorted : (mandatesByCreatedAt range s owner).Pairwise fun id id' =>
    ∀ m m', s.mandates[id]? = some m → s.mandates[id']? = some m' → ¬ m'.Older m := by
  rw [mandatesByCreatedAt_eq, List.pairwise_map]
  refine (List.pairwise_insertionSort notYounger _).imp_of_mem ?_
  rintro ⟨id, m⟩ ⟨id', m'⟩ hmem hmem' hle n n' hn hn' holder
  rw [List.mem_insertionSort, mem_ownedEntries] at hmem hmem'
  rw [hmem.1] at hn
  rw [hmem'.1] at hn'
  obtain rfl := Option.some.inj hn
  obtain rfl := Option.some.inj hn'
  rcases notYounger_iff.mp hle with hlt | ⟨heq, hid⟩
  · rcases holder with hlt' | ⟨heq', _⟩
    · exact absurd hlt' (not_lt.mpr (le_of_lt hlt))
    · exact absurd heq' (ne_of_gt hlt)
  · rcases holder with hlt' | ⟨_, hlt'⟩
    · exact absurd heq (ne_of_gt hlt')
    · exact absurd hid (String.not_le.mpr hlt')

end Order

/-! ### The two loops -/

/-- What the loop may draw on the mandate filed under `id`. -/
def drawLimit (mandates : ExtTreeMap String Mandate) (id : String) : Nat :=
  mandates[id]?.elim 0 fun m => if m.active then m.available.toNat else 0

/-- `m` with `n` less available. -/
def Mandate.debit (m : Mandate) (n : Nat) : Mandate :=
  { m with available := m.available - UInt64.ofNat n }

@[simp] theorem debit_zero (m : Mandate) : m.debit 0 = m := by
  simp [Mandate.debit]

theorem debit_debit (m : Mandate) (a b : Nat) : (m.debit a).debit b = m.debit (a + b) := by
  simp [Mandate.debit, sub_sub_ofNat]

theorem drawLimit_debit {mandates mandates' : ExtTreeMap String Mandate} {id : String}
    (h : mandates'[id]? = mandates[id]?.map fun m : Mandate => m.debit 0) :
    drawLimit mandates' id = drawLimit mandates id := by
  unfold drawLimit
  rw [h]
  cases mandates[id]? <;> simp

/-- One round takes what the library's does. -/
theorem drawMandate_draws (d : Drawing) (id : String) :
    ∃ d', drawMandate .wrapping d id = .ok d' ∧
      d'.remaining.toNat = d.remaining.toNat - min (drawLimit d.mandates id) d.remaining.toNat ∧
      d'.reserved =
        d.reserved - UInt64.ofNat (min (drawLimit d.mandates id) d.remaining.toNat) ∧
      ∀ id', d'.mandates[id']? = d.mandates[id']?.map fun m : Mandate =>
        m.debit (if id = id' then min (drawLimit d.mandates id) d.remaining.toNat else 0) := by
  have hsame : min (drawLimit d.mandates id) d.remaining.toNat = 0 →
      ∃ d', (.ok d : Except LedgerError Drawing) = .ok d' ∧
      d'.remaining.toNat = d.remaining.toNat - min (drawLimit d.mandates id) d.remaining.toNat ∧
      d'.reserved =
        d.reserved - UInt64.ofNat (min (drawLimit d.mandates id) d.remaining.toNat) ∧
      ∀ id', d'.mandates[id']? = d.mandates[id']?.map fun m : Mandate =>
        m.debit (if id = id' then min (drawLimit d.mandates id) d.remaining.toNat else 0) := by
    intro hzero
    refine ⟨d, rfl, ?_⟩
    simp [hzero]
  unfold drawMandate
  cases hm : d.mandates[id]? with
  | none => exact hsame (by simp [drawLimit, hm])
  | some m =>
      dsimp only
      by_cases hskip : d.remaining = 0 ∨ m.active = false ∨ m.available = 0
      · rw [if_pos hskip]
        refine hsame ?_
        rcases hskip with hzero | hinactive | hempty
        · simp [hzero]
        · simp [drawLimit, hm, hinactive]
        · simp [drawLimit, hm, hempty]
      · rw [if_neg hskip]
        simp only [not_or, Bool.not_eq_false] at hskip
        obtain ⟨_, hactive, _⟩ := hskip
        have hlimit : drawLimit d.mandates id = m.available.toNat := by
          simp [drawLimit, hm, hactive]
        generalize htake : (if m.available > d.remaining then d.remaining else m.available) = take
        have htakeNat : take.toNat = min m.available.toNat d.remaining.toNat := by
          rw [← htake, apply_ite UInt64.toNat]
          simp only [gt_iff_lt, UInt64.lt_iff_toNat_lt]
          split <;> omega
        have htaken : take = UInt64.ofNat (min m.available.toNat d.remaining.toNat) := by
          rw [← htakeNat, UInt64.ofNat_toNat]
        refine ⟨_, rfl, ?_, ?_, fun id' => ?_⟩
        · rw [hlimit, ← htakeNat]
          exact UInt64.toNat_sub_of_le _ _ (UInt64.le_iff_toNat_le.mpr (by omega))
        · rw [hlimit, ← htaken]
        · dsimp only
          rw [hlimit, getElem?_insert_eq]
          by_cases hid : id = id'
          · rw [if_pos hid, if_pos hid, ← hid, hm, Option.map_some, Mandate.debit, ← htaken]
          · simp [hid]

/-- **The first loop of `Withdraw`** is a filling. -/
theorem drawMandates_draws {ids : List String} (hnodup : ids.Nodup) (d : Drawing) :
    ∃ d', ids.foldlM (drawMandate .wrapping) d = .ok d' ∧
      d'.remaining.toNat = d.remaining.toNat -
        Greedy.amount (Greedy.fill (drawLimit d.mandates) ids d.remaining.toNat) ∧
      d'.reserved = d.reserved - UInt64.ofNat
        (Greedy.amount (Greedy.fill (drawLimit d.mandates) ids d.remaining.toNat)) ∧
      ∀ id, d'.mandates[id]? = d.mandates[id]?.map fun m : Mandate =>
        m.debit (Greedy.share (Greedy.fill (drawLimit d.mandates) ids d.remaining.toNat) id) := by
  induction ids generalizing d with
  | nil => exact ⟨d, rfl, by simp⟩
  | cons id rest ih =>
      obtain ⟨hnew, hrest⟩ := List.nodup_cons.mp hnodup
      obtain ⟨d₁, hone, hremaining, hreserved, hmandates⟩ := drawMandate_draws d id
      obtain ⟨d', hloop, hremaining', hreserved', hmandates'⟩ := ih hrest d₁
      have hlimits : ∀ id' ∈ rest, drawLimit d₁.mandates id' = drawLimit d.mandates id' := by
        intro id' hid'
        have hne : id ≠ id' := fun heq => hnew (heq ▸ hid')
        refine drawLimit_debit ?_
        rw [hmandates id', if_neg hne]
      rw [Greedy.fill_congr hlimits, hremaining] at hremaining' hreserved' hmandates'
      refine ⟨d', ?_, ?_, ?_, fun id' => ?_⟩
      · rw [List.foldlM_cons, hone]
        exact hloop
      · rw [hremaining', Greedy.fill_cons, Greedy.amount_cons]
        omega
      · rw [hreserved', hreserved, sub_sub_ofNat, Greedy.fill_cons, Greedy.amount_cons]
      · rw [hmandates', hmandates, Option.map_map, Greedy.fill_cons]
        simp only [Function.comp_def, debit_debit, Greedy.share_cons]

/-- **The second loop** retires the empty mandates among those it visits. -/
theorem retireAll_get {ids : List String} (hnodup : ids.Nodup)
    (mandates : ExtTreeMap String Mandate) (id : String) :
    (ids.foldl retireEmpty mandates)[id]? =
      mandates[id]?.map fun m : Mandate => if id ∈ ids then m.retireIfEmpty else m := by
  induction ids generalizing mandates with
  | nil => simp
  | cons id' rest ih =>
      obtain ⟨hnew, hrest⟩ := List.nodup_cons.mp hnodup
      have hone : (retireEmpty mandates id')[id]? =
          mandates[id]?.map fun m : Mandate => if id' = id then m.retireIfEmpty else m := by
        unfold retireEmpty
        cases hm : mandates[id']? with
        | none =>
            by_cases hid : id' = id
            · rw [← hid, hm]
              rfl
            · simp [hid]
        | some m =>
            rw [getElem?_insert_eq]
            by_cases hid : id' = id
            · rw [if_pos hid, ← hid, hm]
              simp
            · simp [hid]
      rw [List.foldl_cons, ih hrest, hone, Option.map_map]
      by_cases hid : id' = id
      · have hout : id ∉ rest := hid ▸ hnew
        simp [Function.comp_def, hid, hout]
      · simp [Function.comp_def, hid, Ne.symm hid]

/-! ### What is withdrawable -/

/-- What the owner's mandates have available. -/
def State.ownAvailable (s : State) (key : String) : Nat :=
  s.totalMandates fun m => if m.lender = key then m.available.toNat else 0

/-- What `Withdraw` may take for an owner. -/
def State.withdrawable (s : State) (key : String) (asset : Asset) : Nat :=
  ((s.accountAt key).balances.get asset).available.toNat +
    if asset = .usdt0 then s.ownAvailable key else 0

section Draw

variable {range : RangeOrder} {s : State} {owner : String}

/-- An inactive mandate has nothing available, so its limit is what it has. -/
theorem drawLimit_eq (hinactive : ∀ (id : String) (m : Mandate), s.mandates[id]? = some m →
      m.active = false → m.available = 0) {id : String} {m : Mandate}
    (hm : s.mandates[id]? = some m) : drawLimit s.mandates id = m.available.toNat := by
  unfold drawLimit
  rw [hm]
  cases hactive : m.active with
  | true => simp [hactive]
  | false => simp [hactive, hinactive id m hm hactive]

theorem sum_drawLimit (hinactive : ∀ (id : String) (m : Mandate), s.mandates[id]? = some m →
      m.active = false → m.available = 0) :
    ((mandatesByCreatedAt range s owner).map (drawLimit s.mandates)).sum =
      s.ownAvailable (toLower owner) := by
  unfold State.ownAvailable State.totalMandates
  rw [total_eq_sum (Finset.Subset.refl (keySet s.mandates)),
    ← List.sum_toFinset _ mandatesByCreatedAt_nodup]
  have hsubset : (mandatesByCreatedAt range s owner).toFinset ⊆ keySet s.mandates := by
    intro id hid
    obtain ⟨m, hm, _⟩ := mem_mandatesByCreatedAt.mp (List.mem_toFinset.mp hid)
    exact mem_keySet.mpr ⟨m, hm⟩
  rw [← Finset.sum_subset hsubset]
  · refine Finset.sum_congr rfl fun id hid => ?_
    obtain ⟨m, hm, hlender⟩ := mem_mandatesByCreatedAt.mp (List.mem_toFinset.mp hid)
    rw [drawLimit_eq hinactive hm, hm]
    simp [hlender]
  · intro id hid hout
    obtain ⟨m, hm⟩ := mem_keySet.mp hid
    have hother : m.lender ≠ toLower owner := fun hlender =>
      hout (List.mem_toFinset.mpr (mem_mandatesByCreatedAt.mpr ⟨m, hm, hlender⟩))
    rw [hm]
    simp [hother]

/-- The older of two mandates is emptied before the other is touched. -/
theorem share_older (hinactive : ∀ (id : String) (m : Mandate), s.mandates[id]? = some m →
      m.active = false → m.available = 0) (wanted : Nat) {id id' : String} {m m' : Mandate}
    (hm : s.mandates[id]? = some m) (hm' : s.mandates[id']? = some m')
    (hlender : m.lender = toLower owner) (holder : m.Older m')
    (htouched : 0 < Greedy.share (Greedy.fill (drawLimit s.mandates)
      (mandatesByCreatedAt range s owner) wanted) id') :
    Greedy.share (Greedy.fill (drawLimit s.mandates)
      (mandatesByCreatedAt range s owner) wanted) id = m.available.toNat := by
  have hmem : id ∈ mandatesByCreatedAt range s owner :=
    mem_mandatesByCreatedAt.mpr ⟨m, hm, hlender⟩
  have hmem' : id' ∈ mandatesByCreatedAt range s owner := by
    by_contra hout
    rw [Greedy.share_fill_of_not_mem hout] at htouched
    exact Nat.lt_irrefl 0 htouched
  have hne : id ≠ id' := by
    rintro rfl
    rw [hm] at hm'
    obtain rfl := Option.some.inj hm'
    rcases holder with hlt | ⟨_, hlt⟩
    · exact absurd hlt (Int.lt_irrefl _)
    · exact absurd hlt (String.lt_irrefl _)
  have hturn : (mandatesByCreatedAt range s owner).Pairwise _ :=
    mandatesByCreatedAt_sorted.and
      (@Greedy.share_in_turn _ (drawLimit s.mandates) _ _ mandatesByCreatedAt_nodup wanted)
  -- of two members of a list one stands before the other
  rcases hturn.before_or_after hmem hmem' hne with ⟨_, hused⟩ | ⟨hyounger, _⟩
  · rw [hused htouched, drawLimit_eq hinactive hm]
  · exact absurd holder (hyounger m' m hm' hm)

/-- What a withdrawal makes of a mandate on which it takes `n`. -/
def Mandate.TakenFrom (key : String) (n : Nat) (m m' : Mandate) : Prop :=
  n = 0 ∧ m' = m ∨ m.lender = key ∧ n ≤ m.available.toNat ∧ m' = (m.debit n).retireIfEmpty

/-- From `bal` and the mandates of `key` the amount was taken. -/
structure BalanceTaken (key : String) (s : State) (bal : Balance) (amount : UInt64) (s₁ : State)
    (bal' : Balance) (taken : String → Nat) : Prop where
  frame : s₁ = { s with mandates := s₁.mandates }
  available : bal'.available.toNat = bal.available.toNat - amount.toNat
  drawn : (total s.mandates fun id _ => taken id) = amount.toNat - bal.available.toNat
  reserved : bal'.reserved = bal.reserved - UInt64.ofNat (amount.toNat - bal.available.toNat)
  mandates : Pointwise (fun id => Mandate.TakenFrom key (taken id)) s.mandates s₁.mandates
  inTurn : ∀ (id id' : String) (m m' : Mandate), s.mandates[id]? = some m →
    s.mandates[id']? = some m' → m.lender = key → m.Older m' → 0 < taken id' →
    taken id = m.available.toNat

/-- The shares of a filling of mandates on file add up to its amount. -/
theorem total_share {taken : List (String × Nat)}
    (h : ∀ t ∈ taken, ∃ m, s.mandates[t.1]? = some m) :
    (total s.mandates fun id _ => Greedy.share taken id) = Greedy.amount taken := by
  induction taken with
  | nil => exact total_eq_zero fun _ _ _ => rfl
  | cons t rest ih =>
      obtain ⟨m, hm⟩ := h t List.mem_cons_self
      simp only [Greedy.share_cons, Greedy.amount_cons]
      rw [total_add, total_filed hm, ih fun u hu => h u (List.mem_cons_of_mem _ hu)]

/-- What the loops make of the mandates, one by one. -/
theorem drawn_takenFrom (wanted : Nat) {d : Drawing}
    (h : ∀ id, d.mandates[id]? = s.mandates[id]?.map fun m : Mandate =>
      m.debit (Greedy.share (Greedy.fill (drawLimit s.mandates)
        (mandatesByCreatedAt range s owner) wanted) id))
    (hinactive : ∀ (id : String) (m : Mandate), s.mandates[id]? = some m →
      m.active = false → m.available = 0) :
    Pointwise (fun id => Mandate.TakenFrom (toLower owner) (Greedy.share
        (Greedy.fill (drawLimit s.mandates) (mandatesByCreatedAt range s owner) wanted) id))
      s.mandates ((mandatesByCreatedAt range s owner).foldl retireEmpty d.mandates) := by
  intro id
  rw [retireAll_get mandatesByCreatedAt_nodup, h, Option.map_map]
  cases hm : s.mandates[id]? with
  | none => exact Option.Rel.none
  | some m =>
      refine Option.Rel.some ?_
      simp only [Function.comp_apply]
      by_cases hmem : id ∈ mandatesByCreatedAt range s owner
      · obtain ⟨m', hm', hlender⟩ := mem_mandatesByCreatedAt.mp hmem
        rw [hm] at hm'
        obtain rfl := Option.some.inj hm'
        have hle := @Greedy.share_fill_le _ (drawLimit s.mandates) _ _
          (@mandatesByCreatedAt_nodup range s owner) wanted id
        rw [drawLimit_eq hinactive hm] at hle
        exact Or.inr ⟨hlender, hle, if_pos hmem⟩
      · refine Or.inl ⟨Greedy.share_fill_of_not_mem hmem, ?_⟩
        rw [if_neg hmem, Greedy.share_fill_of_not_mem hmem, debit_zero]

theorem drawBalance_exact (hinactive : ∀ (id : String) (m : Mandate), s.mandates[id]? = some m →
      m.active = false → m.available = 0) (a : Account) (asset : Asset) (amount : UInt64) :
    ((∃ r, drawBalance .wrapping range s a asset amount = .ok r) ↔
      amount.toNat ≤ (a.balances.get asset).available.toNat +
        if asset = .usdt0 then s.ownAvailable (toLower a.owner) else 0) ∧
    ∀ r, drawBalance .wrapping range s a asset amount = .ok r →
      ∃ taken, BalanceTaken (toLower a.owner) s (a.balances.get asset) amount r.1 r.2 taken := by
  generalize hbal : a.balances.get asset = bal
  by_cases henough : bal.available ≥ amount
  · have hle := UInt64.le_iff_toNat_le.mp henough
    have hdraw : drawBalance .wrapping range s a asset amount =
        .ok (s, { bal with available := bal.available - amount }) := by
      unfold drawBalance
      simp only [hbal, if_pos henough]
      rfl
    rw [hdraw]
    refine ⟨iff_of_true ⟨_, rfl⟩ (by omega), fun r hr => ?_⟩
    obtain rfl := Except.ok.inj hr
    have hnone : amount.toNat - bal.available.toNat = 0 := by omega
    refine ⟨fun _ => 0, rfl, UInt64.toNat_sub_of_le _ _ henough, ?_, ?_, ?_, ?_⟩
    · rw [hnone]
      exact total_eq_zero fun _ _ _ => rfl
    · simp [hnone]
    · exact Pointwise.refl fun _ _ _ => Or.inl ⟨rfl, rfl⟩
    · intro id id' m m' _ _ _ _ htouched
      exact absurd htouched (Nat.lt_irrefl 0)
  · have hshort := UInt64.lt_iff_toNat_lt.mp (UInt64.not_le.mp henough)
    have hleft : (amount - bal.available).toNat = amount.toNat - bal.available.toNat :=
      UInt64.toNat_sub_of_le _ _ (UInt64.le_of_lt (UInt64.not_le.mp henough))
    have hdraw : drawBalance .wrapping range s a asset amount =
        (rejectIf (asset ≠ .usdt0) .insufficientBalance >>= fun _ =>
          (mandatesByCreatedAt range s a.owner).foldlM (drawMandate .wrapping)
            { mandates := s.mandates, reserved := bal.reserved,
              remaining := amount - bal.available } >>= fun d =>
          rejectIf (d.remaining > 0) .insufficientBalance >>= fun _ =>
            pure ({ s with
              mandates := (mandatesByCreatedAt range s a.owner).foldl retireEmpty d.mandates },
              { available := 0, reserved := d.reserved })) := by
      unfold drawBalance
      simp only [hbal, if_neg henough]
      rfl
    rw [hdraw]
    by_cases husdt0 : asset = .usdt0
    · rw [rejectIf_of_not (not_not.mpr husdt0), ok_bind, if_pos husdt0]
      obtain ⟨d, hloop, hremaining, hreserved, hmandates⟩ := drawMandates_draws
        (@mandatesByCreatedAt_nodup range s a.owner)
        { mandates := s.mandates, reserved := bal.reserved, remaining := amount - bal.available }
      dsimp only at hremaining hreserved hmandates
      rw [hleft] at hremaining hreserved hmandates
      rw [Greedy.amount_fill, sum_drawLimit hinactive] at hremaining hreserved
      rw [hloop, ok_bind]
      by_cases hcovered : d.remaining > 0
      · have hpos := UInt64.lt_iff_toNat_lt.mp hcovered
        rw [rejectIf_of hcovered, error_bind]
        simp only [UInt64.toNat_zero] at hpos
        refine ⟨iff_of_false (by simp) (by omega), fun r hr => by cases hr⟩
      · have hzero := UInt64.le_iff_toNat_le.mp (UInt64.not_lt.mp hcovered)
        simp only [UInt64.toNat_zero] at hzero
        have hall : min (amount.toNat - bal.available.toNat) (s.ownAvailable (toLower a.owner)) =
            amount.toNat - bal.available.toNat := by omega
        rw [rejectIf_of_not hcovered, ok_bind]
        refine ⟨iff_of_true ⟨_, rfl⟩ (by omega), fun r hr => ?_⟩
        obtain rfl := Except.ok.inj hr
        refine ⟨_, rfl, ?_, ?_, ?_, drawn_takenFrom _ hmandates hinactive, ?_⟩
        · simp
          omega
        · rw [total_share, Greedy.amount_fill, sum_drawLimit hinactive, hall]
          intro t ht
          have hid : t.1 ∈ mandatesByCreatedAt range s a.owner := by
            rw [← Greedy.map_fst_fill (drawLimit s.mandates) (mandatesByCreatedAt range s a.owner)]
            exact List.mem_map_of_mem ht
          obtain ⟨m, hm, _⟩ := mem_mandatesByCreatedAt.mp hid
          exact ⟨m, hm⟩
        · rw [← hall]
          exact hreserved
        · intro id id' m m' hm hm' hlender holder htouched
          exact share_older hinactive _ hm hm' hlender holder htouched
    · rw [rejectIf_of husdt0, error_bind, if_neg husdt0]
      refine ⟨iff_of_false (by simp) (by omega), fun r hr => by cases hr⟩

end Draw

/-! ### Whose mandates they are -/

/-- The lender of a mandate has an account, which has used its nonce. -/
def LendersKnown (s : State) : Prop :=
  ∀ (id : String) (m : Mandate), s.mandates[id]? = some m → 0 < (s.accountAt m.lender).nonce

theorem lendersKnown_step {A : Arith} {host : Host} (s : State) (e : Event) (s' : State)
    (h : Wellformed s ∧ LendersKnown s) (hstep : step A host s e = .ok s') :
    Wellformed s' ∧ LendersKnown s' := by
  refine ⟨wellformed_step s e s' h.1 hstep, ?_⟩
  have hgrows : ∀ key, (s.accountAt key).nonce ≤ (s'.accountAt key).nonce := by
    intro key
    rw [step_nonce key s e s' hstep]
    exact Nat.le_add_right _ _
  have hkeep : SameOffers s s' → LendersKnown s' := by
    intro hsame id m' hm'
    obtain ⟨m, hm, hoffer⟩ := hsame.get' hm'
    rw [hoffer.lender]
    exact Nat.lt_of_lt_of_le (h.2 id m hm) (hgrows _)
  cases e with
  | confirm sequence root stored =>
      obtain rfl := confirmAnchor_ok hstep
      exact h.2
  | operate ctx stored op =>
      obtain ⟨_, _, next, hbody, rfl⟩ := Operation.apply_ok hstep
      rcases body_offers hbody with ⟨owner, id, amount, minAPR, termMask, cap, n, _, rfl, _⟩ | hsame
      · obtain ⟨_, _, bal', _, _, hnext⟩ := setMandate_ok hbody
        intro key m' hm'
        rw [anchored_mandates, hnext, putMandate_get] at hm'
        by_cases hkey : id = key
        · rw [if_pos hkey, Option.some.injEq] at hm'
          rw [← hm']
          dsimp only
          rw [account_owner h.1, accountAt_congr (anchored_accounts _ _), hnext,
            accountAt_putMandate, accountAt_putAccount, if_pos rfl]
          exact Nat.succ_pos _
        · rw [if_neg hkey] at hm'
          exact Nat.lt_of_lt_of_le (h.2 key m' hm') (hgrows _)
      · exact hkeep hsame

theorem lendersKnown_ledgerAfter (A : Arith) (host : Host) (events : List Event) :
    LendersKnown (ledgerAfter A host events) :=
  (Machine.invariant lendersKnown_step
    ⟨wellformed_newState, fun _ _ h => by simp [newState] at h⟩ events).2

/-- What an owner's mandates have available is reserved. -/
theorem ownAvailable_le_reserved {s : State} (hback : ReservedBacking s)
    (howner : ∀ key, (s.accountAt key).owner = key) (hknown : LendersKnown s) (key : String) :
    s.ownAvailable key ≤ (s.accountAt key).balances.usdt0.reserved.toNat := by
  cases ha : s.accounts[key]? with
  | some a =>
      have hkey := howner key
      rw [accountAt_of_some ha] at hkey ⊢
      rw [hback.usdt0 key a ha, hkey]
      refine total_mono fun id m _ => ?_
      dsimp only
      split
      · exact Nat.le_add_right _ _
      · exact le_rfl
  | none =>
      -- who has no account has no mandate
      have hzero : s.ownAvailable key = 0 := by
        refine total_eq_zero fun id m hm => if_neg ?_
        rintro rfl
        have hnonce := hknown id m hm
        rw [accountAt_of_none ha] at hnonce
        exact absurd hnonce (Nat.lt_irrefl 0)
      rw [hzero]
      exact Nat.zero_le _

/-- Of two mandates one is older. -/
theorem older_or_older {m m' : Mandate} (hne : m.id ≠ m'.id) : m.Older m' ∨ m'.Older m := by
  unfold Mandate.Older
  rcases lt_trichotomy m.createdAt m'.createdAt with hlt | heq | hgt
  · exact Or.inl (Or.inl hlt)
  · by_cases hlt : m.id < m'.id
    · exact Or.inl (Or.inr ⟨heq, hlt⟩)
    · have hle := String.not_lt.mp hlt
      refine Or.inr (Or.inr ⟨heq.symm, ?_⟩)
      by_contra hnot
      exact hne (String.le_antisymm (String.not_lt.mp hnot) hle)
  · exact Or.inr (Or.inl hgt)

/-! ### The withdrawal -/

/-- What a committed withdrawal did, with `taken` the part of each mandate. -/
structure Withdrawn (s s' : State) (key : String) (asset : Asset) (amount : UInt64)
    (taken : String → Nat) : Prop where
  /-- The balance goes first, -/
  available : ((s'.accountAt key).balances.get asset).available.toNat =
    ((s.accountAt key).balances.get asset).available.toNat - amount.toNat
  /-- the mandates give the rest, -/
  drawn : (total s.mandates fun id _ => taken id) =
    amount.toNat - ((s.accountAt key).balances.get asset).available.toNat
  /-- and so much less is reserved. -/
  reserved : ((s'.accountAt key).balances.get asset).reserved.toNat +
      (amount.toNat - ((s.accountAt key).balances.get asset).available.toNat) =
    ((s.accountAt key).balances.get asset).reserved.toNat
  otherAsset : ∀ asset', asset' ≠ asset →
    (s'.accountAt key).balances.get asset' = (s.accountAt key).balances.get asset'
  /-- What is left of a mandate, which is active where anything is. -/
  mandates : Pointwise (fun id m m' => m'.available.toNat + taken id = m.available.toNat ∧
    m'.allocatedPrincipal = m.allocatedPrincipal ∧
      (m' = m ∨ m.lender = key ∧
        (m'.active = true ↔ m'.available ≠ 0 ∨ m'.allocatedPrincipal ≠ 0)))
    s.mandates s'.mandates
  inTurn : ∀ (id id' : String) (m m' : Mandate), s.mandates[id]? = some m →
    s.mandates[id']? = some m' → m.lender = key → m.Older m' → 0 < taken id' →
    taken id = m.available.toNat
  oneInPart : ∀ (id id' : String) (m m' : Mandate), s.mandates[id]? = some m →
    s.mandates[id']? = some m' → 0 < taken id → taken id < m.available.toNat →
    0 < taken id' → taken id' < m'.available.toNat → id = id'
  others : ∀ key', key' ≠ key → s'.accounts[key']? = s.accounts[key']?

/-- What the loops made of a mandate, read off it. -/
theorem Mandate.TakenFrom.left {key : String} {n : Nat} {m m' : Mandate}
    (h : m.TakenFrom key n m') (hinactive : m.active = false → m.available = 0) :
    m'.available.toNat + n = m.available.toNat ∧ m'.allocatedPrincipal = m.allocatedPrincipal ∧
      (m' = m ∨ m.lender = key ∧
        (m'.active = true ↔ m'.available ≠ 0 ∨ m'.allocatedPrincipal ≠ 0)) := by
  rcases h with ⟨rfl, rfl⟩ | ⟨hlender, hle, rfl⟩
  · exact ⟨rfl, rfl, Or.inl rfl⟩
  · have hsub : (UInt64.ofNat n).toNat = n :=
      UInt64.toNat_ofNat_of_lt (Nat.lt_of_le_of_lt hle m.available.toNat_lt)
    have hleft : (m.debit n).available.toNat = m.available.toNat - n := by
      show (m.available - UInt64.ofNat n).toNat = _
      rw [UInt64.toNat_sub_of_le _ _ (UInt64.le_iff_toNat_le.mpr (hsub.symm ▸ hle)), hsub]
    refine ⟨?_, retireIfEmpty_allocated _, ?_⟩
    · rw [retireIfEmpty_available, hleft]
      omega
    · cases hactive : m.active with
      | true =>
          refine Or.inr ⟨hlender, ?_⟩
          rw [retireIfEmpty_active, retireIfEmpty_available, retireIfEmpty_allocated]
          exact and_iff_right hactive
      | false =>
          -- an inactive mandate is empty: nothing was taken, and it is retired already
          have hzero : n = 0 := by
            rw [hinactive hactive] at hle
            exact Nat.le_zero.mp hle
          refine Or.inl ?_
          rw [hzero, debit_zero, Mandate.retireIfEmpty, ← hactive]
          split <;> rfl

/-- Written back, a drawn balance makes a withdrawal. -/
theorem BalanceTaken.withdrawn {key : String} {s s₁ s' : State} {asset : Asset} {bal' : Balance}
    {amount : UInt64} {taken : String → Nat}
    (h : BalanceTaken key s ((s.accountAt key).balances.get asset) amount s₁ bal' taken)
    (hback : ReservedBacking s) (hformed : Wellformed s)
    (hreserved : amount.toNat - ((s.accountAt key).balances.get asset).available.toNat ≤
      ((s.accountAt key).balances.get asset).reserved.toNat)
    (hmandates : s'.mandates = s₁.mandates)
    (hself : (s'.accountAt key).balances = (s.accountAt key).balances.set asset bal')
    (hothers : ∀ key', key' ≠ key → s'.accounts[key']? = s.accounts[key']?) :
    Withdrawn s s' key asset amount taken := by
  refine ⟨?_, h.drawn, ?_, fun asset' hne => ?_, ?_, h.inTurn, ?_, hothers⟩
  · rw [hself, Balances.get_set_self]
    exact h.available
  · rw [hself, Balances.get_set_self, h.reserved]
    generalize amount.toNat - ((s.accountAt key).balances.get asset).available.toNat = n at *
    have hn : (UInt64.ofNat n).toNat = n :=
      UInt64.toNat_ofNat_of_lt (Nat.lt_of_le_of_lt hreserved (UInt64.toNat_lt _))
    rw [UInt64.toNat_sub_of_le _ _ (UInt64.le_iff_toNat_le.mpr (hn.symm ▸ hreserved)), hn]
    omega
  · rw [hself, Balances.get_set_ne _ _ (Ne.symm hne)]
  · rw [hmandates]
    intro id
    cases hm : s.mandates[id]? with
    | none => rw [h.mandates.get_none hm]; exact Option.Rel.none
    | some m =>
        obtain ⟨m', hm', htake⟩ := h.mandates.get hm
        rw [hm']
        exact Option.Rel.some (Mandate.TakenFrom.left htake (hback.inactive id m hm))
  · intro id id' m m' hm hm' htouched hpart htouched' hpart'
    by_contra hne
    have hlender : ∀ (i : String) (n : Mandate), s.mandates[i]? = some n → 0 < taken i →
        n.lender = key := by
      intro i n hn hpos
      obtain ⟨n', _, ⟨hzero, _⟩ | ⟨hlender, _⟩⟩ := h.mandates.get hn
      · exact absurd hzero (Nat.ne_of_gt hpos)
      · exact hlender
    have hids : m.id ≠ m'.id := by
      rw [(hformed.mandate id m hm).1, (hformed.mandate id' m' hm').1]
      exact hne
    -- the older of the two is empty
    rcases older_or_older hids with holder | holder
    · exact absurd (h.inTurn id id' m m' hm hm' (hlender id m hm htouched) holder htouched')
        (Nat.ne_of_lt hpart)
    · exact absurd (h.inTurn id' id m' m hm' hm (hlender id' m' hm' htouched') holder htouched)
        (Nat.ne_of_lt hpart')

section Withdrawing

variable {host : Host} {ctx : Context} {s : State} {owner name id : String} {asset : Asset}
  {amount : UInt64} {nonce : Nat}

/-- With its checks passed, a withdrawal is the drawing and the writing of what was drawn. -/
theorem withdraw_step (hname : Asset.ofName name = some asset) (hamount : amount ≠ 0)
    (hpending : s.pendingAnchor = none) (hnonce : (s.account owner).nonce = nonce)
    (hid : id ∉ s.processed) :
    step .wrapping host s (.operate ctx true (.withdraw owner name amount id nonce)) =
      (drawBalance .wrapping ctx.range s { s.account owner with nonce := nonce + 1 } asset
        amount >>= fun drawn => .ok (anchored host .withdrawRequest id s
          { (drawn.1.putAccount owner { s.account owner with
              nonce := nonce + 1
              balances := (s.account owner).balances.set asset drawn.2 }).markProcessed id with
            activities := drawn.1.activities ++
              [{ id, account := (s.account owner).owner, kind := "withdrawal", asset, amount,
                 createdAt := ctx.now }] })) := by
  have hvalid : (Operation.withdraw owner name amount id nonce).validate ctx = .ok () :=
    rejectIf_of_not (by simp [hname, hamount])
  have hbody : (Operation.withdraw owner name amount id nonce).body .wrapping host ctx s =
      (drawBalance .wrapping ctx.range s { s.account owner with nonce := nonce + 1 } asset amount >>=
        fun drawn => .ok { (drawn.1.putAccount owner { s.account owner with
              nonce := nonce + 1
              balances := (s.account owner).balances.set asset drawn.2 }).markProcessed id with
            activities := drawn.1.activities ++
              [{ id, account := (s.account owner).owner, kind := "withdrawal", asset, amount,
                 createdAt := ctx.now }] }) := by
    unfold Operation.body
    dsimp only
    rw [hname]
    show withdraw .wrapping ctx owner asset amount id nonce s = _
    unfold withdraw
    rw [rejectIf_of_not hid, ok_bind, consumeNonce_eq_ok.mpr ⟨hnonce, rfl⟩, ok_bind, hnonce]
    rfl
  show ((Operation.withdraw owner name amount id nonce).validate ctx >>= fun _ => mutate host
    .withdrawRequest id true ((Operation.withdraw owner name amount id nonce).body .wrapping host ctx)
      s) = _
  rw [hvalid, ok_bind]
  unfold mutate
  rw [rejectIf_of_not (by simp [hpending]), ok_bind, hbody]
  cases drawBalance .wrapping ctx.range s { s.account owner with nonce := nonce + 1 } asset amount with
  | error e => rfl
  | ok drawn => rfl

/-- **`Withdraw` takes exactly what is withdrawable.** -/
theorem withdraw_exact (host : Host) (events : List Event)
    (hback : ReservedBacking (ledgerAfter .wrapping host events))
    (hpending : (ledgerAfter .wrapping host events).pendingAnchor = none)
    (hname : Asset.ofName name = some asset) (hamount : 0 < amount)
    (hnonce : ((ledgerAfter .wrapping host events).account owner).nonce = nonce)
    (hid : id ∉ (ledgerAfter .wrapping host events).processed) (ctx : Context) :
    ((∃ s', step .wrapping host (ledgerAfter .wrapping host events)
        (.operate ctx true (.withdraw owner name amount id nonce)) = .ok s') ↔
      amount.toNat ≤ (ledgerAfter .wrapping host events).withdrawable (toLower owner) asset) ∧
    (∀ s', step .wrapping host (ledgerAfter .wrapping host events)
        (.operate ctx true (.withdraw owner name amount id nonce)) = .ok s' →
      ∃ taken, Withdrawn (ledgerAfter .wrapping host events) s' (toLower owner) asset amount
        taken) ∧
    ∀ e, step .wrapping host (ledgerAfter .wrapping host events)
        (.operate ctx true (.withdraw owner name amount id nonce)) = .error e →
      Machine.run (step .wrapping host) (ledgerAfter .wrapping host events)
        [.operate ctx true (.withdraw owner name amount id nonce)] =
          ledgerAfter .wrapping host events := by
  have hformed := wellformed_ledgerAfter .wrapping host events
  have hknown := lendersKnown_ledgerAfter .wrapping host events
  generalize ledgerAfter .wrapping host events = s at *
  have hne : amount ≠ 0 := fun h0 => by simp [h0] at hamount
  rw [withdraw_step hname hne hpending hnonce hid]
  have hwithdrawable : s.withdrawable (toLower owner) asset =
      ((s.account owner).balances.get asset).available.toNat +
        if asset = .usdt0 then s.ownAvailable (toLower owner) else 0 := rfl
  obtain ⟨a, ha⟩ : ∃ a : Account, a = { s.account owner with nonce := nonce + 1 } := ⟨_, rfl⟩
  have howner : toLower a.owner = toLower owner := by
    rw [ha]
    exact (congrArg toLower (account_owner hformed owner)).trans (toLower_toLower owner)
  have hbalances : a.balances = (s.account owner).balances := by rw [ha]
  obtain ⟨hiff, htaken⟩ := @drawBalance_exact ctx.range s hback.inactive a asset amount
  rw [howner, hbalances, ← hwithdrawable] at hiff
  rw [howner, hbalances] at htaken
  rw [← ha, ← hiff]
  cases hdraw : drawBalance .wrapping ctx.range s a asset amount with
  | error e =>
      rw [error_bind]
      refine ⟨iff_of_false (by simp) (by simp), ?_, fun e' _ => ?_⟩
      · intro s' hs'
        cases hs'
      · rw [Machine.run_cons, Machine.run_nil]
        refine Machine.next_error (e := e) ?_
        rw [withdraw_step hname hne hpending hnonce hid, ← ha, hdraw, error_bind]
  | ok drawn =>
      rw [ok_bind]
      refine ⟨iff_of_true ⟨_, rfl⟩ ⟨_, rfl⟩, fun s' hs' => ?_, by simp⟩
      obtain rfl := Except.ok.inj hs'
      obtain ⟨taken, h⟩ := htaken _ hdraw
      have hcovered := hiff.mp ⟨_, hdraw⟩
      have haccounts : drawn.1.accounts = s.accounts := by rw [h.frame]
      rw [hwithdrawable] at hcovered
      refine ⟨taken, h.withdrawn hback hformed ?_ rfl ?_ fun key' hkey' => ?_⟩
      · by_cases husdt0 : asset = .usdt0
        · rw [if_pos husdt0] at hcovered
          have hown := ownAvailable_le_reserved hback hformed.owner hknown (toLower owner)
          rw [husdt0] at hcovered ⊢
          rw [account_eq] at hcovered
          simp only [Balances.get_usdt0] at hcovered ⊢
          omega
        · rw [if_neg husdt0, account_eq] at hcovered
          omega
      · rw [accountAt_congr (anchored_accounts _ _)]
        show ((drawn.1.putAccount owner _).accountAt (toLower owner)).balances = _
        rw [accountAt_putAccount, if_pos rfl]
        rfl
      · simp only [anchored_accounts, markProcessed_accounts]
        rw [putAccount_accounts_get, if_neg (Ne.symm hkey'), haccounts]

end Withdrawing

/-- A lender with three mandates beside another's. -/
def spread : List Operation := [
  .deposit "0xc" "USDT0" 1000000 "d1",
  .deposit "0xd" "USDT0" 500000 "d2",
  .setMandate "0xc" "m3" 300000 600 7 300000 0,
  .setMandate "0xc" "m1" 200000 800 7 200000 1,
  .setMandate "0xd" "m0" 500000 800 7 500000 0,
  .setMandate "0xc" "m2" 300000 800 7 300000 2]

theorem spread_guarded :
    Machine.Meets (step .wrapping sampleHost) Guarded newState
      (settledCalls .wrapping sampleHost newState spread) := by
  refine meets_settledCalls (fun _ _ _ _ => ⟨nofun, trivial⟩) ?_
  have hcommits : ∀ c ∈ settledCommits .wrapping sampleHost newState spread,
      FreshLoanID c.1 c.2 ∧ KeepsRange c.1 c.2 := by decide +kernel
  exact fun c hc => guarded_iff.mp (hcommits c hc)

/-- What is left of the mandates of a state, with who has them. -/
def State.leftOf (s : State) (id : String) : Option (String × UInt64) :=
  s.mandates[id]?.map fun m => (m.lender, m.available)

/-- It takes back its balance, all of the older two mandates and part of the youngest. -/
theorem withdraw_exact_spread : ∃ s' taken,
    step .wrapping sampleHost (ledgerAfter .wrapping sampleHost
      (settledCalls .wrapping sampleHost newState spread))
      (sampleCall (.withdraw "0xc" "USDT0" 800000 "w1" 3)) = .ok s' ∧
    ["m0", "m1", "m2", "m3"].map s'.leftOf =
      [some ("0xd", 500000), some ("0xc", 0), some ("0xc", 0), some ("0xc", 200000)] ∧
    Withdrawn (ledgerAfter .wrapping sampleHost
      (settledCalls .wrapping sampleHost newState spread)) s' "0xc" .usdt0 800000 taken := by
  have hback := (sound_ledgerAfter sampleHost _ spread_guarded).reservedBacking
  have hchecks : (settledState .wrapping sampleHost newState spread).pendingAnchor = none ∧
      ((settledState .wrapping sampleHost newState spread).account "0xc").nonce = 3 ∧
      "w1" ∉ (settledState .wrapping sampleHost newState spread).processed ∧
      (step .wrapping sampleHost (settledState .wrapping sampleHost newState spread)
        (sampleCall (.withdraw "0xc" "USDT0" 800000 "w1" 3))).toOption.map
          (fun s' => ["m0", "m1", "m2", "m3"].map s'.leftOf) =
        some [some ("0xd", 500000), some ("0xc", 0), some ("0xc", 0), some ("0xc", 200000)] := by
    refine ⟨?_, ?_, ?_, ?_⟩ <;> decide +kernel
  rw [← run_settledCalls] at hchecks
  obtain ⟨hpending, hnonce, hid, haccepted⟩ := hchecks
  have hexact := withdraw_exact sampleHost _ hback hpending
    (rfl : Asset.ofName "USDT0" = some .usdt0) (by decide : (0 : UInt64) < 800000) hnonce hid
    { requestedAt := 1000, now := 1000, range := RangeOrder.sorted }
  cases hstep : step .wrapping sampleHost (ledgerAfter .wrapping sampleHost
      (settledCalls .wrapping sampleHost newState spread))
      (sampleCall (.withdraw "0xc" "USDT0" 800000 "w1" 3)) with
  | error e =>
      unfold ledgerAfter at hstep
      simp [hstep, Except.toOption] at haccepted
  | ok s' =>
      unfold ledgerAfter at hstep
      simp only [hstep, Except.toOption, Option.map_some, Option.some.injEq] at haccepted
      obtain ⟨taken, hwithdrawn⟩ := hexact.2.1 s' hstep
      exact ⟨s', taken, rfl, haccepted, hwithdrawn⟩

end QuietLine
