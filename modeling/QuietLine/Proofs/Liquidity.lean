/-
What borrowing and withdrawing take from the mandates.

`AcceptQuote` moves principal from available to allocated, tranche by tranche.
`Withdraw` empties the caller's mandates, oldest first, and then retires those
with nothing left.  Either loop touches the mandates alone, and each is described
by what it does to one of them.
-/
import QuietLine.Proofs.Distribution

namespace QuietLine

open Outcome MapSum MapRel Std

/-! ### Allocation -/

/-- `m'` is `m` after it lent `lent` more. -/
structure Mandate.Lent (A : Arith) (lent : Nat) (m m' : Mandate) : Prop
    extends m.SameOffer m' where
  active : m'.active = m.active
  available : m.available.toNat = m'.available.toNat + lent
  allocated : A = .trapping → m'.allocatedPrincipal.toNat = m.allocatedPrincipal.toNat + lent

theorem Mandate.Lent.refl (A : Arith) (m : Mandate) : m.Lent A 0 m :=
  ⟨Mandate.SameOffer.refl m, rfl, rfl, fun _ => rfl⟩

theorem Mandate.Lent.trans {A : Arith} {m m' m'' : Mandate} {r r' : Nat} (h : m.Lent A r m')
    (h' : m'.Lent A r' m'') : m.Lent A (r + r') m'' := by
  have hav := h.available
  have hav' := h'.available
  refine ⟨h.toSameOffer.trans h'.toSameOffer, h'.active.trans h.active, by omega, ?_⟩
  intro hA
  have hall := h.allocated hA
  have hall' := h'.allocated hA
  omega

/-- From `s` to `s'` the tranches `ts` were allocated. -/
structure Allocated (A : Arith) (ts : List Tranche) (s s' : State) : Prop where
  frame : s' = { s with mandates := s'.mandates }
  mandates : Pointwise (fun id => Mandate.Lent A (trancheShare id ts)) s.mandates s'.mandates

theorem Allocated.refl (A : Arith) (s : State) : Allocated A [] s s :=
  ⟨rfl, Pointwise.refl fun _ m _ => Mandate.Lent.refl A m⟩

theorem Allocated.cons {A : Arith} {t : Tranche} {rest : List Tranche} {s s₁ s₂ : State}
    (h : Allocated A [t] s s₁) (h' : Allocated A rest s₁ s₂) : Allocated A (t :: rest) s s₂ := by
  refine ⟨by rw [h'.frame, h.frame], ?_⟩
  refine h.mandates.comp h'.mandates fun id m m₁ m₂ hm hm₁ => ?_
  have hboth := hm.trans hm₁
  simpa using hboth

theorem allocateTranche_ok {A : Arith} {s s' : State} {t : Tranche}
    (h : allocateTranche A s t = .ok s') : Allocated A [t] s s' := by
  unfold allocateTranche at h
  simp only [bind_eq_ok, orElse_eq_ok, rejectIf_eq_ok] at h
  obtain ⟨m, hm, _, hle, available, hav, allocated, hall, hs'⟩ := h
  cases hs'
  have hexact := Arith.sub_of_le (toNat_le_of_not_lt hle) hav
  refine ⟨rfl, Pointwise.insert hm ?_ ?_⟩
  · refine ⟨⟨rfl, rfl, rfl, rfl, fun h => h⟩, rfl, ?_, ?_⟩
    · show _ = available.toNat + _
      simp
      omega
    · rintro rfl
      show allocated.toNat = _
      have := Arith.trapping_add_eq_ok.mp hall
      simp
      omega
  · intro id m'' _ hne
    have hshare : trancheShare id [t] = 0 := by
      simp [if_neg fun h0 : t.mandateID = id => hne h0.symm]
    rw [hshare]
    exact Mandate.Lent.refl A m''

/-- **The loop of `AcceptQuote`**, over any list of tranches. -/
theorem allocateTranches_ok {A : Arith} {ts : List Tranche} {s s' : State}
    (h : ts.foldlM (allocateTranche A) s = .ok s') : Allocated A ts s s' := by
  refine foldlM_ok (R := Allocated A) (Allocated.refl A) ?_ h
  intro t rest s s₁ s₂ hfirst hrest
  exact (allocateTranche_ok hfirst).cons hrest

/-! ### Drawing -/

/-- `m'` is `m` after the lender `key` withdrew from it or retired it. -/
structure Mandate.Drawn (key : String) (m m' : Mandate) : Prop extends m.SameOffer m' where
  allocated : m'.allocatedPrincipal = m.allocatedPrincipal
  available : m'.available.toNat ≤ m.available.toNat
  retired : m.active = true → m'.active = false → m'.liquidity = 0
  /-- Nobody else's mandate is touched. -/
  others : m.lender ≠ key → m' = m

theorem Mandate.Drawn.refl (key : String) (m : Mandate) : m.Drawn key m :=
  ⟨Mandate.SameOffer.refl m, rfl, le_rfl, fun h h' => by simp [h] at h', fun _ => rfl⟩

theorem Mandate.Drawn.trans {key : String} {m m' m'' : Mandate} (h : m.Drawn key m')
    (h' : m'.Drawn key m'') : m.Drawn key m'' := by
  have hav := h.available
  have hav' := h'.available
  refine ⟨h.toSameOffer.trans h'.toSameOffer, h'.allocated.trans h.allocated, by omega, ?_, ?_⟩
  · intro hm hm''
    cases hm' : m'.active with
    | true => exact h'.retired hm' hm''
    | false =>
        have hzero := h.retired hm hm'
        have hall := congrArg UInt64.toNat h'.allocated
        unfold Mandate.liquidity at *
        omega
  · intro hne
    rw [h'.others (by rw [h.lender]; exact hne), h.others hne]

/-- What backs the reserved balance of `key`, in a map of mandates. -/
def backingIn (mandates : ExtTreeMap String Mandate) (key : String) : Nat :=
  total mandates fun _ m => if m.lender = key then m.liquidity else 0

theorem backing_eq (s : State) (key : String) : s.backing key = backingIn s.mandates key := rfl

theorem backingIn_insert {mandates : ExtTreeMap String Mandate} {id : String} {m : Mandate}
    (key : String) (m' : Mandate) (h : mandates[id]? = some m) (hlender : m'.lender = m.lender) :
    backingIn (mandates.insert id m') key + (if m.lender = key then m.liquidity else 0) =
      backingIn mandates key + (if m.lender = key then m'.liquidity else 0) := by
  have := total_insert_some (v := m')
    (f := fun _ m => if m.lender = key then m.liquidity else 0) h
  rwa [hlender] at this

/-- From `d` to `d'` the lender `key` drew on mandates of its own. -/
structure DrawnOn (A : Arith) (key : String) (d d' : Drawing) : Prop where
  mandates : Pointwise (fun _ => Mandate.Drawn key) d.mandates d'.mandates
  /-- What was taken is what the mandates lost. -/
  backing : backingIn d.mandates key + d'.remaining.toNat =
    backingIn d'.mandates key + d.remaining.toNat
  reserved : A = .trapping →
    d.reserved.toNat + d'.remaining.toNat = d'.reserved.toNat + d.remaining.toNat

theorem DrawnOn.refl (A : Arith) (key : String) (d : Drawing) : DrawnOn A key d d :=
  ⟨Pointwise.refl fun _ m _ => Mandate.Drawn.refl key m, rfl, fun _ => rfl⟩

theorem DrawnOn.trans {A : Arith} {key : String} {d d₁ d₂ : Drawing} (h : DrawnOn A key d d₁)
    (h' : DrawnOn A key d₁ d₂) : DrawnOn A key d d₂ := by
  have hb := h.backing
  have hb' := h'.backing
  refine ⟨h.mandates.comp h'.mandates fun _ _ _ _ hm hm' => hm.trans hm', by omega, ?_⟩
  intro hA
  have hr := h.reserved hA
  have hr' := h'.reserved hA
  omega

/-- The mandates listed in `ids` belong to the lender `key`. -/
def OwnedBy (key : String) (mandates : ExtTreeMap String Mandate) (ids : List String) : Prop :=
  ∀ id ∈ ids, ∀ m, mandates[id]? = some m → m.lender = key

theorem OwnedBy.of_sameOffer {key : String} {mandates mandates' : ExtTreeMap String Mandate}
    {ids : List String} (h : OwnedBy key mandates ids)
    (hm : Pointwise (fun _ m m' => m.SameOffer m') mandates mandates') :
    OwnedBy key mandates' ids := by
  intro id hid m' hm'
  obtain ⟨m, hget, hsame⟩ := hm.get' hm'
  rw [hsame.lender]
  exact h id hid m hget

theorem OwnedBy.tail {key id : String} {mandates : ExtTreeMap String Mandate} {ids : List String}
    (h : OwnedBy key mandates (id :: ids)) : OwnedBy key mandates ids :=
  fun id' hid' => h id' (List.mem_cons_of_mem _ hid')

theorem take_le_both {a b take : UInt64} (h : take = if a > b then b else a) :
    take.toNat ≤ a.toNat ∧ take.toNat ≤ b.toNat := by
  subst h
  simp only [GT.gt, UInt64.lt_iff_toNat_lt]
  split <;> omega

theorem drawMandate_ok {A : Arith} {key id : String} {d d' : Drawing}
    (hown : ∀ m, d.mandates[id]? = some m → m.lender = key)
    (h : drawMandate A d id = .ok d') : DrawnOn A key d d' := by
  unfold drawMandate at h
  cases hm : d.mandates[id]? with
  | none =>
      rw [hm] at h
      cases h
      exact DrawnOn.refl A key d
  | some m =>
      simp only [hm] at h
      by_cases hskip : d.remaining = 0 ∨ m.active = false ∨ m.available = 0
      · rw [if_pos hskip] at h
        cases h
        exact DrawnOn.refl A key d
      · rw [if_neg hskip] at h
        simp only [bind_eq_ok] at h
        obtain ⟨available, hav, reserved, hres, remaining, hrem, hd'⟩ := h
        cases hd'
        generalize htake : (if m.available > d.remaining then d.remaining else m.available) = take
          at hav hres hrem
        obtain ⟨hle, hle'⟩ := take_le_both htake.symm
        have hav' := Arith.sub_of_le hle hav
        have hrem' := Arith.sub_of_le hle' hrem
        have hlender := hown m hm
        refine ⟨Pointwise.insert hm ?_ fun _ m _ _ => Mandate.Drawn.refl key m, ?_, ?_⟩
        · refine ⟨⟨rfl, rfl, rfl, rfl, fun h => h⟩, rfl, ?_, ?_, fun h => absurd hlender h⟩
          · show available.toNat ≤ _
            omega
          · intro h h'
            rw [h] at h'
            cases h'
        · have hback := backingIn_insert key { m with available } hm rfl
          rw [if_pos hlender, if_pos hlender] at hback
          simp only [Mandate.liquidity] at hback
          show _ + remaining.toNat = backingIn (d.mandates.insert id { m with available }) key + _
          omega
        · rintro rfl
          have hres' := Arith.trapping_sub_eq_ok.mp hres
          show _ + remaining.toNat = reserved.toNat + _
          omega

/-- **The first loop of `Withdraw`**, over mandates of one lender. -/
theorem drawMandates_ok {A : Arith} {key : String} {ids : List String} {d d' : Drawing}
    (hown : OwnedBy key d.mandates ids) (h : ids.foldlM (drawMandate A) d = .ok d') :
    DrawnOn A key d d' := by
  refine foldlM_ok (R := fun ids d d' => OwnedBy key d.mandates ids → DrawnOn A key d d')
    (fun d _ => DrawnOn.refl A key d) ?_ h hown
  intro id rest d d₁ d₂ hfirst hrest hown
  have hone := drawMandate_ok (hown id (by simp)) hfirst
  exact hone.trans (hrest (hown.tail.of_sameOffer (hone.mandates.mono fun _ _ _ h => h.toSameOffer)))

/-! ### Retiring -/

theorem retireIfEmpty_drawn {key : String} {m : Mandate} (hlender : m.lender = key) :
    m.Drawn key m.retireIfEmpty :=
  ⟨retireIfEmpty_sameOffer rfl rfl rfl rfl rfl, retireIfEmpty_allocated m,
    (congrArg UInt64.toNat (retireIfEmpty_available m)).le,
    retireIfEmpty_liquidity rfl, fun h => absurd hlender h⟩

theorem retireEmpty_drawn {key id : String} {mandates : ExtTreeMap String Mandate}
    (hown : ∀ m : Mandate, mandates[id]? = some m → m.lender = key) :
    Pointwise (fun _ => Mandate.Drawn key) mandates (retireEmpty mandates id) ∧
      ∀ key', backingIn (retireEmpty mandates id) key' = backingIn mandates key' := by
  unfold retireEmpty
  cases hm : mandates[id]? with
  | none => exact ⟨Pointwise.refl fun _ m _ => Mandate.Drawn.refl key m, fun _ => rfl⟩
  | some m =>
      refine ⟨Pointwise.insert hm (retireIfEmpty_drawn (hown m hm))
        fun _ m _ _ => Mandate.Drawn.refl key m, ?_⟩
      intro key'
      have hback := backingIn_insert key' m.retireIfEmpty hm
        (retireIfEmpty_sameOffer rfl rfl rfl rfl rfl).lender
      rw [retireIfEmpty_liquidity_eq] at hback
      exact Nat.add_right_cancel hback

/-- **The second loop of `Withdraw`**: nothing moves. -/
theorem retireAll_drawn {key : String} :
    ∀ {ids : List String} {mandates : ExtTreeMap String Mandate}, OwnedBy key mandates ids →
      Pointwise (fun _ => Mandate.Drawn key) mandates (ids.foldl retireEmpty mandates) ∧
        ∀ key', backingIn (ids.foldl retireEmpty mandates) key' = backingIn mandates key' := by
  intro ids
  induction ids with
  | nil =>
      intro mandates _
      exact ⟨Pointwise.refl fun _ m _ => Mandate.Drawn.refl key m, fun _ => rfl⟩
  | cons id rest ih =>
      intro mandates hown
      obtain ⟨hone, hback⟩ := retireEmpty_drawn (hown id (by simp))
      obtain ⟨hrest, hback'⟩ := ih
        (hown.tail.of_sameOffer (hone.mono fun _ _ _ h => h.toSameOffer))
      refine ⟨hone.comp hrest fun _ _ _ _ hm hm' => hm.trans hm', ?_⟩
      intro key'
      exact (hback' key').trans (hback key')

/-- The mandates `Withdraw` visits are the caller's. -/
theorem mandatesByCreatedAt_owned (range : RangeOrder) (s : State) (owner : String) :
    OwnedBy (toLower owner) s.mandates (mandatesByCreatedAt range s owner) := by
  intro id hid m hm
  unfold mandatesByCreatedAt at hid
  obtain ⟨⟨id', m'⟩, hmem, hid'⟩ := List.mem_map.mp hid
  rw [List.mem_insertionSort, List.mem_filter] at hmem
  obtain ⟨hmem, hlender⟩ := hmem
  obtain ⟨id'', _, hget⟩ := List.mem_filterMap.mp hmem
  obtain ⟨m'', hm'', hpair⟩ := Option.map_eq_some_iff.mp hget
  cases hpair
  cases hid'
  rw [hm''] at hm
  cases hm
  exact of_decide_eq_true hlender

end QuietLine
