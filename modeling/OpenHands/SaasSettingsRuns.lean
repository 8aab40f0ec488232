/-
# Whether the budget is multiplied once

Two things are written before the user is created: the margin is spent, and the user is
deleted.  If nothing fails between the first of them and the creation, then the values in
LiteLLM are the previous ones, with the margin still to be spent, or the final ones, with no
margin left.  A call that fails in between leaves the user without its values, or with values
that no later call multiplies.
-/
import OpenHands.SaasSettings

namespace OpenHands.SaasSettings

open Run

variable {store : SaasSettingsStore} {replies : Replies} {w start : World}

/-! ## Margins and budgets -/

/-- A margin is spent once. -/
theorem upgradeMargin_spendMargin (w : World) : w.spendMargin.upgradeMargin = none := by
  unfold World.spendMargin World.upgradeMargin
  cases w.settings with
  | none => rfl
  | some settings =>
    show (if settings.userVersion < 4 ∧ (1 : ℚ) ≠ 0 ∧ (1 : ℚ) ≠ 1 then some (1 : ℚ) else none) = none
    exact if_neg fun h => h.2.2 rfl

/-- Settings of the current version have no margin to be spent. -/
theorem upgradeMargin_stored (store : SaasSettingsStore) (w : World) :
    (store.stored w).upgradeMargin = none := by
  unfold SaasSettingsStore.stored World.upgradeMargin
  cases w.settings with
  | none =>
    show (if (4 : ℤ) < 4 ∧ store.defaultBillingMargin ≠ 0 ∧ store.defaultBillingMargin ≠ 1
      then some store.defaultBillingMargin else none) = none
    exact if_neg fun h => absurd h.1 (lt_irrefl 4)
  | some settings =>
    show UserSettings.upgradeMargin { settings with userVersion := 4 } = none
    unfold UserSettings.upgradeMargin
    cases settings.billingMargin with
    | none => rfl
    | some margin => exact if_neg fun h => absurd h.1 (lt_irrefl 4)

theorem upgradeMargin_getD_ne_zero (w : World) : w.upgradeMargin.getD 1 ≠ 0 := by
  cases hmargin : w.upgradeMargin with
  | none => exact one_ne_zero
  | some margin =>
    unfold World.upgradeMargin at hmargin
    obtain ⟨settings, -, hsettings⟩ := Option.bind_eq_some_iff.mp hmargin
    unfold UserSettings.upgradeMargin at hsettings
    split at hsettings
    · split at hsettings
      · next hdue =>
        cases hsettings
        exact hdue.2.1
      · cases hsettings
    · cases hsettings

@[simp] theorem LiteLlmUser.scale_one (user : LiteLlmUser) : user.scale 1 = user := by
  unfold LiteLlmUser.scale
  rw [mul_one]
  simp

/-- A budget that the code does not replace. -/
def SaasSettingsStore.Keeps (store : SaasSettingsStore) (user : LiteLlmUser) : Prop :=
  user.maxBudget = some (store.budgetOrDefault user.maxBudget)

theorem keeps_iff {user : LiteLlmUser} : store.Keeps user ↔
    ∃ budget, user.maxBudget = some budget ∧ (budget = 0 → store.defaultInitialBudget = 0) := by
  unfold SaasSettingsStore.Keeps SaasSettingsStore.budgetOrDefault
  cases user.maxBudget with
  | none => simp
  | some budget =>
    by_cases hzero : budget = 0
    · simp [hzero, eq_comm]
    · simp [hzero]

theorem SaasSettingsStore.Keeps.scale {user : LiteLlmUser} (h : store.Keeps user) {margin : ℚ}
    (hmargin : margin ≠ 0) : store.Keeps (user.scale margin) := by
  obtain ⟨budget, hbudget, hzero⟩ := keeps_iff.mp h
  refine keeps_iff.mpr ⟨budget * margin, ?_, fun hproduct => ?_⟩
  · show user.maxBudget.map (· * margin) = _
    rw [hbudget]
    rfl
  · exact hzero ((mul_eq_zero_iff_right hmargin).mp hproduct)

/-- A user whose budget is kept is created with both values multiplied. -/
theorem newUser_eq (h : store.Keeps w.userInfo) :
    store.newUser w = w.userInfo.scale (w.upgradeMargin.getD 1) := by
  unfold SaasSettingsStore.newUser LiteLlmUser.scale
  rw [h]
  have hbudget : store.budgetOrDefault (some (store.budgetOrDefault w.userInfo.maxBudget))
      = store.budgetOrDefault w.userInfo.maxBudget := by
    rw [← h]
  rw [hbudget]
  cases w.upgradeMargin with
  | none => simp
  | some margin => rfl

/-- A budget that is not kept is not multiplied either. -/
theorem keeps_of_newUser_eq {margin : ℚ} (h : store.newUser w = w.userInfo.scale margin) :
    store.Keeps w.userInfo := by
  have hnew : (store.newUser w).maxBudget
      = some (store.budgetOrDefault w.userInfo.maxBudget * w.upgradeMargin.getD 1) := by
    unfold SaasSettingsStore.newUser
    cases w.upgradeMargin with
    | none => simp
    | some margin => rfl
  rw [h] at hnew
  change w.userInfo.maxBudget.map (· * margin) = _ at hnew
  rw [keeps_iff]
  cases hbudget : w.userInfo.maxBudget with
  | none =>
    rw [hbudget] at hnew
    cases hnew
  | some budget =>
    refine ⟨budget, rfl, fun hzero => ?_⟩
    -- the budget is 0, so a default other than 0 would show in the product
    rw [hbudget, hzero] at hnew
    have hproduct := Option.some.inj hnew
    simp only [zero_mul, SaasSettingsStore.budgetOrDefault, if_true] at hproduct
    exact (mul_eq_zero_iff_right (upgradeMargin_getD_ne_zero w)).mp hproduct.symm

/-! ## What one call does -/

theorem raised_ne_settings : Result.raised ≠ .settings := by decide

theorem none_ne_settings : Result.none ≠ .settings := by decide

theorem storeSettings_user (store : SaasSettingsStore) (replies : Replies)
    (outcome : Result × World) :
    (store.storeSettings replies outcome).2.liteLlmUser = outcome.2.liteLlmUser := by
  obtain ⟨result, updated⟩ := outcome
  unfold SaasSettingsStore.storeSettings
  cases result with
  | settings =>
    cases replies.commitSettings with
    | answered => rfl
    | refused => rfl
    | lost applied => cases applied <;> rfl
  | none => rfl
  | raised => rfl

theorem storeSettings_upgradeMargin (store : SaasSettingsStore) (replies : Replies)
    (outcome : Result × World) :
    (store.storeSettings replies outcome).2.upgradeMargin = outcome.2.upgradeMargin ∨
      (store.storeSettings replies outcome).2.upgradeMargin = none := by
  obtain ⟨result, updated⟩ := outcome
  unfold SaasSettingsStore.storeSettings
  cases result with
  | settings =>
    cases replies.commitSettings with
    | answered => exact Or.inr (upgradeMargin_stored store updated)
    | refused => exact Or.inl rfl
    | lost applied =>
      cases applied with
      | false => exact Or.inl rfl
      | true => exact Or.inr (upgradeMargin_stored store updated)
  | none => exact Or.inl rfl
  | raised => exact Or.inl rfl

theorem storeSettings_result {outcome : Result × World} (h : outcome.1 ≠ .settings) :
    store.storeSettings replies outcome = outcome := by
  obtain ⟨result, updated⟩ := outcome
  cases result with
  | settings => exact absurd rfl h
  | none => rfl
  | raised => rfl

theorem recreate_of_creates (h : replies.Creates) (requested : LiteLlmUser)
    (user : Option LiteLlmUser) :
    (SaasSettingsStore.recreate replies requested user).2 = some requested := by
  obtain ⟨hdelete, hcreation⟩ := h
  unfold Replies.creation at hcreation
  unfold SaasSettingsStore.recreate
  simp only [hdelete]
  cases hcreate : replies.create with
  | answered => rfl
  | lost applied =>
    rw [hcreate, if_neg (fun heq => by cases heq)] at hcreation
    cases hcreation
    rfl
  | refused =>
    rw [hcreate, if_pos rfl] at hcreation
    cases hagain : replies.createAgain with
    | answered => rfl
    | lost applied =>
      rw [hagain] at hcreation
      cases hcreation
      rfl
    | refused =>
      rw [hagain] at hcreation
      cases hcreation

theorem recreate_of_not_creates (h : ¬ replies.Creates) (requested : LiteLlmUser)
    (user : Option LiteLlmUser) :
    (SaasSettingsStore.recreate replies requested user).1 ≠ .settings ∧
      (SaasSettingsStore.recreate replies requested user).2
        = if replies.delete.applied then none else user := by
  unfold SaasSettingsStore.recreate
  cases hdelete : replies.delete.raises with
  | true => exact ⟨raised_ne_settings, rfl⟩
  | false =>
    have hcreation : replies.creation.applied ≠ true := fun happlied => h ⟨hdelete, happlied⟩
    unfold Replies.creation at hcreation
    cases hcreate : replies.create with
    | answered =>
      rw [hcreate] at hcreation
      exact absurd rfl hcreation
    | lost applied =>
      cases applied with
      | true =>
        rw [hcreate] at hcreation
        exact absurd rfl hcreation
      | false => exact ⟨raised_ne_settings, rfl⟩
    | refused =>
      rw [hcreate, if_pos rfl] at hcreation
      cases hagain : replies.createAgain with
      | answered =>
        rw [hagain] at hcreation
        exact absurd rfl hcreation
      | lost applied =>
        cases applied with
        | true =>
          rw [hagain] at hcreation
          exact absurd rfl hcreation
        | false => exact ⟨raised_ne_settings, rfl⟩
      | refused => exact ⟨none_ne_settings, rfl⟩

/-- The state in which a call that gets as far as the deletion stores the settings. -/
def recreated (store : SaasSettingsStore) (replies : Replies) (w : World) : Result × World :=
  let outcome := SaasSettingsStore.recreate replies (store.newUser w) w.liteLlmUser
  (outcome.1, { (if w.upgradeMargin.isSome then w.spendMargin else w) with
    liteLlmUser := outcome.2 })

theorem recreated_upgradeMargin (store : SaasSettingsStore) (replies : Replies) (w : World) :
    (recreated store replies w).2.upgradeMargin = none := by
  show (if w.upgradeMargin.isSome then w.spendMargin else w).upgradeMargin = none
  cases hmargin : w.upgradeMargin with
  | none => exact hmargin
  | some margin => exact upgradeMargin_spendMargin w

/-- A call that gets as far as the deletion leaves no margin. -/
theorem upgradeMargin_of_reaches (store : SaasSettingsStore) (replies : Replies) (w : World) :
    (store.storeSettings replies (recreated store replies w)).2.upgradeMargin = none := by
  rcases storeSettings_upgradeMargin store replies (recreated store replies w) with heq | heq
  · rw [heq]
    exact recreated_upgradeMargin store replies w
  · exact heq

/-- A call that reaches the deletion and does not create the user leaves it as it is, unless it
is deleted. -/
theorem user_of_not_creates (store : SaasSettingsStore) (w : World)
    (hcreates : ¬ replies.Creates) :
    (store.storeSettings replies (recreated store replies w)).2.liteLlmUser
      = if replies.delete.applied then none else w.liteLlmUser := by
  rw [storeSettings_user]
  exact (recreate_of_not_creates hcreates (store.newUser w) w.liteLlmUser).2

/-- How a call ends: before it has written anything, with LiteLLM left alone, at the commit of
the margin, or after it has deleted and created the user. -/
inductive Ends (store : SaasSettingsStore) (replies : Replies) (w : World) : Result × World → Prop
  | stops {result : Result} (hreads : ¬ store.Reads replies)
      (hremote : store.localDeployment = true → store.Serves →
        store.hasPaymentMethod replies ≠ some true) (hresult : result ≠ .settings) :
      Ends store replies w (result, w)
  | leaves (hserves : store.Serves) (hlocal : store.localDeployment = true) :
      Ends store replies w (store.storeSettings replies (.settings, w))
  | spends (hreads : store.Reads replies) (hmargin : w.upgradeMargin.isSome = true)
      (hcommit : replies.commitMargin ≠ .answered) :
      Ends store replies w (.raised, if replies.commitMargin.applied then w.spendMargin else w)
  | recreates (hreaches : store.ReachesDelete replies w) :
      Ends store replies w (store.storeSettings replies (recreated store replies w))

theorem updateSettings_ends (huser : store.userId ≠ "")
    (hpaid : store.hasPaymentMethod replies = some true) :
    Ends store replies w
      (store.storeSettings replies (store.updateSettingsWithLitellmDefault replies w)) := by
  unfold SaasSettingsStore.updateSettingsWithLitellmDefault
  cases hconfigured : store.liteLlmConfigured with
  | false =>
    exact .stops (fun h => by cases h.1.2.symm.trans hconfigured)
      (fun _ h => by cases h.2.symm.trans hconfigured) none_ne_settings
  | true =>
    cases hlocal : store.localDeployment with
    | true => exact .leaves ⟨huser, hconfigured⟩ hlocal
    | false =>
      have hremote : store.localDeployment = true → store.Serves →
          store.hasPaymentMethod replies ≠ some true :=
        fun heq => by cases hlocal.symm.trans heq
      cases hkeycloak : replies.keycloakUserInfo with
      | false =>
        exact .stops (fun h => by cases h.2.2.2.1.symm.trans hkeycloak) hremote raised_ne_settings
      | true =>
        cases hinfo : replies.userInfo with
        | false =>
          exact .stops (fun h => by cases h.2.2.2.2.1.symm.trans hinfo) hremote raised_ne_settings
        | true =>
          cases hread : replies.readSettings with
          | false =>
            exact .stops (fun h => by cases h.2.2.2.2.2.symm.trans hread) hremote raised_ne_settings
          | true =>
            have hreads : store.Reads replies :=
              ⟨⟨huser, hconfigured⟩, hpaid, hlocal, hkeycloak, hinfo, hread⟩
            by_cases hstop : w.upgradeMargin.isSome = true ∧ replies.commitMargin ≠ .answered
            · simp only [if_pos hstop]
              exact .spends hreads hstop.1 hstop.2
            · simp only [if_neg hstop]
              refine .recreates ⟨hreads, fun hmargin => ?_⟩
              by_contra hne
              exact hstop ⟨hmargin, hne⟩

theorem createDefaultSettings_ends (store : SaasSettingsStore) (replies : Replies) (w : World) :
    Ends store replies w (store.createDefaultSettings replies w) := by
  unfold SaasSettingsStore.createDefaultSettings
  by_cases huser : store.userId = ""
  · rw [if_pos huser]
    exact .stops (fun h => h.1.1 huser) (fun _ h => absurd huser h.1) none_ne_settings
  rw [if_neg huser]
  cases hpaid : store.hasPaymentMethod replies with
  | none =>
    exact .stops (fun h => by cases h.2.1.symm.trans hpaid)
      (fun _ _ h => by cases h.symm.trans hpaid) raised_ne_settings
  | some paid =>
    cases paid with
    | false =>
      exact .stops (fun h => by cases h.2.1.symm.trans hpaid)
        (fun _ _ h => by cases h.symm.trans hpaid) none_ne_settings
    | true => exact updateSettings_ends huser hpaid

/-! ## Values that can be multiplied -/

/-- What holds of every run: the previous values with the margin still to be spent, or the final
ones with none. -/
def Inv (store : SaasSettingsStore) (start w : World) : Prop :=
  (w.liteLlmUser = some start.userInfo ∧ store.factor w = store.factor start) ∨
    (w.liteLlmUser = some (start.userInfo.scale start.billingMargin) ∧ w.upgradeMargin = none)

theorem userInfo_of_user {user : LiteLlmUser} (h : w.liteLlmUser = some user) :
    w.userInfo = user := by
  unfold World.userInfo
  rw [h]
  rfl

theorem factor_of_remote (hlocal : store.localDeployment = false) (w : World) :
    store.factor w = w.upgradeMargin.getD 1 := by
  unfold SaasSettingsStore.factor
  rw [hlocal]
  rfl

theorem factor_of_local (hlocal : store.localDeployment = true) (w : World) :
    store.factor w = 1 := by
  unfold SaasSettingsStore.factor
  rw [hlocal]
  rfl

/-- The values of the user are the previous or the final ones. -/
theorem Inv.user (h : Inv store start w) : w.liteLlmUser = some start.userInfo ∨
    w.liteLlmUser = some (start.userInfo.scale start.billingMargin) :=
  h.imp And.left And.left

theorem Inv.keeps (hup : store.Upgrades start) (hlocal : store.localDeployment = false)
    (h : Inv store start w) : store.Keeps w.userInfo := by
  have hkeeps : store.Keeps start.userInfo := hup.budget hlocal
  rcases h.user with huser | huser
  · rw [userInfo_of_user huser]
    exact hkeeps
  · rw [userInfo_of_user huser, ← hup.margin, factor_of_remote hlocal]
    exact hkeeps.scale (upgradeMargin_getD_ne_zero start)

/-- A user that is created has the final values. -/
theorem Inv.newUser (hup : store.Upgrades start) (hlocal : store.localDeployment = false)
    (h : Inv store start w) :
    store.newUser w = start.userInfo.scale start.billingMargin := by
  rw [newUser_eq (h.keeps hup hlocal)]
  rcases h with ⟨huser, hfactor⟩ | ⟨huser, hmargin⟩
  · rw [userInfo_of_user huser, ← factor_of_remote hlocal, hfactor]
    exact hup.margin
  · rw [userInfo_of_user huser, hmargin]
    exact LiteLlmUser.scale_one _

theorem Inv.user_eq (h : Inv store start w) : w.liteLlmUser = some w.userInfo := by
  rcases h.user with huser | huser
  · rw [userInfo_of_user huser]
    exact huser
  · rw [userInfo_of_user huser]
    exact huser

/-- A margin that has still to be spent changes nothing if the final values are there. -/
theorem Inv.same_iff (hup : store.Upgrades start) (hlocal : store.localDeployment = false)
    (h : Inv store start w) (hmargin : w.upgradeMargin.isSome = true) :
    w.userInfo.scale (w.upgradeMargin.getD 1) = w.userInfo ↔
      w.userInfo = start.userInfo.scale start.billingMargin := by
  rcases h with ⟨huser, hfactor⟩ | ⟨huser, hnone⟩
  · rw [userInfo_of_user huser, ← factor_of_remote hlocal, hfactor, hup.margin]
    exact eq_comm
  · rw [hnone] at hmargin
    cases hmargin

/-- In a local deployment the values stay, and are the final ones. -/
theorem Inv.leave (hup : store.Upgrades start) (hlocal : store.localDeployment = true)
    (h : Inv store start w) (replies : Replies) :
    ScaledOnce start.userInfo start.billingMargin (store.storeSettings replies (.settings, w)) ∧
      Inv store start (store.storeSettings replies (.settings, w)).2 := by
  have hfinal : start.userInfo.scale start.billingMargin = start.userInfo := by
    rw [← hup.margin, factor_of_local hlocal]
    exact LiteLlmUser.scale_one _
  have huser : (store.storeSettings replies (.settings, w)).2.liteLlmUser = some start.userInfo := by
    rw [storeSettings_user]
    rcases h.user with huser | huser
    · exact huser
    · rw [← hfinal]
      exact huser
  refine ⟨⟨fun _ => ?_, fun _ => Or.inl huser⟩, Or.inl ⟨huser, ?_⟩⟩
  · rw [hfinal]
    exact huser
  · rw [factor_of_local hlocal, factor_of_local hlocal]

/-- A margin that is spent for nothing has changed nothing. -/
theorem Inv.spend (hup : store.Upgrades start) (hlocal : store.localDeployment = false)
    (h : Inv store start w) (hmargin : w.upgradeMargin.isSome = true)
    (hsame : w.userInfo.scale (w.upgradeMargin.getD 1) = w.userInfo) :
    w.liteLlmUser = some (start.userInfo.scale start.billingMargin) := by
  rw [h.user_eq, (h.same_iff hup hlocal hmargin).mp hsame]

/-- A user that is created has the final values, whether the settings are stored or not. -/
theorem Inv.create (hup : store.Upgrades start) (h : Inv store start w)
    (hreaches : store.ReachesDelete replies w) (hcreates : replies.Creates) :
    ScaledOnce start.userInfo start.billingMargin
        (store.storeSettings replies (recreated store replies w)) ∧
      Inv store start (store.storeSettings replies (recreated store replies w)).2 := by
  have huser : (store.storeSettings replies (recreated store replies w)).2.liteLlmUser
      = some (start.userInfo.scale start.billingMargin) := by
    rw [storeSettings_user, ← h.newUser hup hreaches.1.2.2.1]
    exact recreate_of_creates hcreates _ _
  exact ⟨⟨fun _ => huser, fun _ => Or.inr huser⟩,
    Or.inr ⟨huser, upgradeMargin_of_reaches store replies w⟩⟩

/-- A user that is neither deleted nor created keeps its values. -/
theorem Inv.keep (hup : store.Upgrades start) (h : Inv store start w)
    (hreaches : store.ReachesDelete replies w) (hproceeds : store.Proceeds replies w)
    (hcreates : ¬ replies.Creates) :
    ScaledOnce start.userInfo start.billingMargin
        (store.storeSettings replies (recreated store replies w)) ∧
      Inv store start (store.storeSettings replies (recreated store replies w)).2 := by
  have hlocal := hreaches.1.2.2.1
  have hresult := (recreate_of_not_creates hcreates (store.newUser w) w.liteLlmUser).1
  have huser := user_of_not_creates store w hcreates
  rw [if_neg fun happlied => hcreates (hproceeds.deletes hreaches happlied)] at huser
  refine ⟨⟨fun heq => ?_, fun _ => huser ▸ h.user⟩, ?_⟩
  · rw [storeSettings_result hresult] at heq
    exact absurd heq hresult
  · -- nothing is created, so no margin was spent that changes the values
    unfold Inv
    rw [huser, factor_of_remote hlocal, upgradeMargin_of_reaches store replies w]
    by_cases hmargin : w.upgradeMargin.isSome = true
    · have happlied : replies.commitMargin.applied = true := by
        rw [hreaches.2 hmargin]
        rfl
      have hsame := (hproceeds.spends hreaches.1 hmargin happlied).resolve_left
        fun h => hcreates h.2
      exact Or.inr ⟨h.spend hup hlocal hmargin hsame, rfl⟩
    · have hnone := Option.not_isSome_iff_eq_none.mp hmargin
      refine h.imp (fun hprev => ⟨hprev.1, ?_⟩) fun hfinal => ⟨hfinal.1, rfl⟩
      rw [← hprev.2, factor_of_remote hlocal, hnone]

/-- A call that proceeds keeps the values in order. -/
theorem Inv.perform (hup : store.Serves → store.Upgrades start) (h : Inv store start w)
    (hproceeds : store.Proceeds replies w) :
    ScaledOnce start.userInfo start.billingMargin (store.createDefaultSettings replies w) ∧
      Inv store start (store.createDefaultSettings replies w).2 := by
  have hends := createDefaultSettings_ends store replies w
  generalize store.createDefaultSettings replies w = outcome at hends
  cases hends with
  | stops hreads _ hresult => exact ⟨⟨fun heq => absurd heq hresult, fun _ => h.user⟩, h⟩
  | leaves hserves hlocal => exact h.leave (hup hserves) hlocal replies
  | spends hreads hmargin hcommit =>
    cases happlied : replies.commitMargin.applied with
    | false => exact ⟨⟨fun heq => absurd heq raised_ne_settings, fun _ => h.user⟩, h⟩
    | true =>
      have hsame := (hproceeds.spends hreads hmargin happlied).resolve_left
        fun hcreates => hcommit hcreates.1
      have huser := h.spend (hup hreads.1) hreads.2.2.1 hmargin hsame
      exact ⟨⟨fun heq => absurd heq raised_ne_settings, fun _ => Or.inr huser⟩,
        Or.inr ⟨huser, upgradeMargin_spendMargin w⟩⟩
  | recreates hreaches =>
    by_cases hcreates : replies.Creates
    · exact h.create (hup hreaches.1.1) hreaches hcreates
    · exact h.keep (hup hreaches.1.1) hreaches hproceeds hcreates

/-! ## Calls in which nothing fails -/

theorem hasPaymentMethod_unfailing (store : SaasSettingsStore) :
    store.hasPaymentMethod {} = some true := ite_self _

theorem reads_unfailing (hserves : store.Serves) (hlocal : store.localDeployment = false) :
    store.Reads {} :=
  ⟨hserves, hasPaymentMethod_unfailing store, hlocal, rfl, rfl, rfl⟩

theorem proceeds_unfailing (store : SaasSettingsStore) (w : World) : store.Proceeds {} w where
  spends := fun _ _ _ => Or.inl ⟨rfl, rfl, rfl⟩
  deletes := fun _ _ => ⟨rfl, rfl⟩

/-- A call in which nothing fails creates the user. -/
theorem SaasSettingsStore.Recovers.newUser {prev : LiteLlmUser} {margin : ℚ}
    (h : store.Recovers w prev margin) (hserves : store.Serves)
    (hlocal : store.localDeployment = false) : store.newUser w = prev.scale margin := by
  have hends := createDefaultSettings_ends store {} w
  unfold SaasSettingsStore.Recovers at h
  generalize store.createDefaultSettings {} w = outcome at hends h
  cases hends with
  | stops hreads => exact absurd (reads_unfailing hserves hlocal) hreads
  | leaves _ hremote => cases hlocal.symm.trans hremote
  | spends _ _ hcommit => exact absurd rfl hcommit
  | recreates => exact Option.some.inj (h.success rfl)

theorem SaasSettingsStore.Recovers.user_of_local {prev : LiteLlmUser} {margin : ℚ}
    (h : store.Recovers w prev margin) (hserves : store.Serves)
    (hlocal : store.localDeployment = true) : w.liteLlmUser = some (prev.scale margin) := by
  have hends := createDefaultSettings_ends store {} w
  unfold SaasSettingsStore.Recovers at h
  generalize store.createDefaultSettings {} w = outcome at hends h
  cases hends with
  | stops _ hremote => exact absurd (hasPaymentMethod_unfailing store) (hremote hlocal hserves)
  | leaves => exact h.success rfl
  | spends hreads => cases hreads.2.2.1.symm.trans hlocal
  | recreates hreaches => cases hreaches.1.2.2.1.symm.trans hlocal

/-- With no margin left, a call in which nothing fails ends well only with the final values. -/
theorem SaasSettingsStore.Recovers.final {prev : LiteLlmUser} {margin : ℚ}
    (h : store.Recovers w prev margin) (hserves : store.Serves)
    (hlocal : store.localDeployment = false) (hnone : w.upgradeMargin = none)
    (hkeeps : store.Keeps w.userInfo) : w.userInfo = prev.scale margin := by
  have hnew := h.newUser hserves hlocal
  rw [newUser_eq hkeeps, hnone] at hnew
  exact (LiteLlmUser.scale_one _).symm.trans hnew

/-- A call in which nothing fails ends well at the start exactly when the values are multiplied
by the margin of the user. -/
theorem recovers_start_iff {settings : Option UserSettings} {prev : LiteLlmUser} :
    store.Recovers (.start settings prev) prev (World.start settings prev).billingMargin ↔
      (store.Serves → store.Upgrades (.start settings prev)) := by
  constructor
  · intro h hserves
    cases hlocal : store.localDeployment with
    | true =>
      refine ⟨fun hremote => absurd (hlocal.symm.trans hremote) (by decide), ?_⟩
      rw [factor_of_local hlocal, LiteLlmUser.scale_one]
      exact Option.some.inj (h.user_of_local hserves hlocal)
    | false =>
      have hnew := h.newUser hserves hlocal
      have hkeeps := keeps_of_newUser_eq (w := .start settings prev) hnew
      refine ⟨fun _ => hkeeps, ?_⟩
      rw [factor_of_remote hlocal, ← newUser_eq hkeeps]
      exact hnew
  · intro hup
    have hinv : Inv store (.start settings prev) (.start settings prev) := Or.inl ⟨rfl, rfl⟩
    exact (hinv.perform hup (proceeds_unfailing store _)).1

theorem createDefaultSettings_of_reaches (h : store.ReachesDelete replies w) :
    store.createDefaultSettings replies w
      = store.storeSettings replies (recreated store replies w) := by
  have hends := createDefaultSettings_ends store replies w
  generalize store.createDefaultSettings replies w = outcome at hends
  cases hends with
  | stops hreads => exact absurd h.1 hreads
  | leaves _ hlocal => cases hlocal.symm.trans h.1.2.2.1
  | spends _ hmargin hcommit => exact absurd (h.2 hmargin) hcommit
  | recreates => rfl

/-- The commit of the margin is lost after it has been applied. -/
theorem createDefaultSettings_of_lost (hreads : store.Reads replies)
    (hmargin : w.upgradeMargin.isSome = true) (hcommit : replies.commitMargin ≠ .answered)
    (happlied : replies.commitMargin.applied = true) :
    store.createDefaultSettings replies w = (.raised, w.spendMargin) := by
  have hends := createDefaultSettings_ends store replies w
  generalize store.createDefaultSettings replies w = outcome at hends
  cases hends with
  | stops hnot => exact absurd hreads hnot
  | leaves _ hlocal => cases hlocal.symm.trans hreads.2.2.1
  | spends => rw [if_pos happlied]
  | recreates hreaches => exact absurd (hreaches.2 hmargin) hcommit

theorem ScaledOnce.user_ne_none {prev : LiteLlmUser} {margin : ℚ} {outcome : Result × World}
    (h : ScaledOnce prev margin outcome) : outcome.2.liteLlmUser ≠ none := by
  intro hnone
  by_cases hresult : outcome.1 = .settings
  · cases hnone.symm.trans (h.success hresult)
  · rcases h.failure hresult with huser | huser
    · cases hnone.symm.trans huser
    · cases hnone.symm.trans huser

/-- A call ends well, and so does one after it in which nothing fails, exactly when it
proceeds. -/
theorem Inv.scaledOnce_iff (hup : store.Serves → store.Upgrades start) (h : Inv store start w) :
    (ScaledOnce start.userInfo start.billingMargin (store.createDefaultSettings replies w) ∧
      store.Recovers (store.createDefaultSettings replies w).2 start.userInfo start.billingMargin)
      ↔ store.Proceeds replies w := by
  constructor
  · rintro ⟨honce, hrecovers⟩
    have hdeletes : store.ReachesDelete replies w → replies.delete.applied = true →
        replies.Creates := by
      intro hreaches happlied
      by_contra hcreates
      refine honce.user_ne_none ?_
      rw [createDefaultSettings_of_reaches hreaches, user_of_not_creates store w hcreates,
        happlied]
      rfl
    refine ⟨fun hreads hmargin happlied => ?_, hdeletes⟩
    have hlocal := hreads.2.2.1
    by_cases hcommit : replies.commitMargin = .answered
    · by_cases hcreates : replies.Creates
      · exact Or.inl ⟨hcommit, hcreates⟩
      · -- the margin is spent, and the values are those before the call
        right
        have hreaches : store.ReachesDelete replies w := ⟨hreads, fun _ => hcommit⟩
        rw [createDefaultSettings_of_reaches hreaches] at hrecovers
        have hkept := user_of_not_creates store w hcreates
        rw [if_neg fun happlied => hcreates (hdeletes hreaches happlied), h.user_eq] at hkept
        have hinfo := userInfo_of_user hkept
        rw [h.same_iff (hup hreads.1) hlocal hmargin, ← hinfo]
        refine hrecovers.final hreads.1 hlocal (upgradeMargin_of_reaches store replies w) ?_
        rw [hinfo]
        exact h.keeps (hup hreads.1) hlocal
    · right
      rw [createDefaultSettings_of_lost hreads hmargin hcommit happlied] at hrecovers
      rw [h.same_iff (hup hreads.1) hlocal hmargin]
      have hkeeps := h.keeps (hup hreads.1) hlocal
      exact hrecovers.final hreads.1 hlocal (upgradeMargin_spendMargin w) hkeeps
  · intro hproceeds
    obtain ⟨honce, hinv⟩ := h.perform hup hproceeds
    exact ⟨honce, (hinv.perform hup (proceeds_unfailing store _)).1⟩

/-! ## Sequences of calls -/

theorem scaledOnce_steps_iff (hup : store.Serves → store.Upgrades start)
    {calls : List Replies} {w : World} (h : Inv store start w) :
    (∀ s ∈ steps store.perform w calls,
        ScaledOnce start.userInfo start.billingMargin (store.createDefaultSettings s.2 s.1) ∧
          store.Recovers (store.perform s.1 s.2) start.userInfo start.billingMargin)
      ↔ ∀ s ∈ steps store.perform w calls, store.Proceeds s.2 s.1 :=
  forall_steps_iff (I := Inv store start) (C := fun w replies => store.Proceeds replies w)
    (fun _ _ h => h.scaledOnce_iff hup)
    (fun _ _ h hproceeds => (h.perform hup hproceeds).2) h

/-- **Every call of a sequence leaves the previous values or multiplies them by the margin once,
and whatever fails can be repeated, if and only if the values at the start are such as the code
multiplies, and no call fails between what it writes first and the creation of the user.** -/
theorem scalesOnce_iff (store : SaasSettingsStore) (settings : Option UserSettings)
    (prev : LiteLlmUser) (calls : List Replies) :
    store.ScalesOnce (.start settings prev) prev calls ↔
      (store.Serves → store.Upgrades (.start settings prev)) ∧
        ∀ s ∈ steps store.perform (.start settings prev) calls, store.Proceeds s.2 s.1 := by
  have hinv : Inv store (.start settings prev) (.start settings prev) := Or.inl ⟨rfl, rfl⟩
  constructor
  · rintro ⟨hstart, hcalls⟩
    have hup := recovers_start_iff.mp hstart
    exact ⟨hup, (scaledOnce_steps_iff hup hinv).mp hcalls⟩
  · rintro ⟨hup, hproceeds⟩
    exact ⟨recovers_start_iff.mpr hup, (scaledOnce_steps_iff hup hinv).mpr hproceeds⟩

/-- The store of a user. -/
def aliceStore : SaasSettingsStore where
  userId := "alice"

/-- A row of version 3 with a margin of 2. -/
def oldSettings : UserSettings where
  userVersion := 3
  billingMargin := some 2

/-- The margin is spent and the connection is lost before the user is deleted: the next call
creates the user with the values that it had. -/
theorem not_scaledOnce_lostDelete :
    ¬ ∀ s ∈ steps aliceStore.perform (.start (some oldSettings) ⟨some 10, 3⟩)
        [{ delete := .lost false }, {}],
      ScaledOnce ⟨some 10, 3⟩ 2 (aliceStore.createDefaultSettings s.2 s.1) := by
  simp only [steps_cons, List.forall_mem_cons]
  rintro ⟨-, hscaled, -⟩
  have hspend := congrArg (Option.map LiteLlmUser.spend) (hscaled.success (by decide))
  have hvalue : (3 : ℚ) = 3 * 2 := Option.some.inj hspend
  norm_num at hvalue

end OpenHands.SaasSettings
