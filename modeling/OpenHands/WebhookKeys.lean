/-
# The session keys of a batch request

The loop checks the session key of a conversation only when it comes to it from another
one, and remembers the conversation before it compares the keys.  `onlyAuthorised_iff` says
for which requests everything that is done was allowed: an operation that follows another
one of its conversation must have the right key itself, and no operation in between may
have changed the user.
-/
import OpenHands.EventWebhook
import OpenHands.Lib.LastFound

namespace OpenHands.EventWebhook

open Saas WebHook LastFound

variable (S : Services) (loads : ByteArray → Option PyJson) (xSessionApiKey : Option String)

/-! ## What a request may do -/

/-- The presented key is that of the conversation, whose user is `userId`. -/
def KeyMatches (conversationId userId : String) : Prop :=
  getUserId S {} conversationId = .ok userId ∧
    getSessionApiKey S {} userId conversationId = .ok xSessionApiKey

/-- The presented key allows the effect, which is done for the user of its conversation. -/
def Authorised (e : Effect) : Prop :=
  ∃ userId, KeyMatches S xSessionApiKey e.conversationId userId ∧
    ∀ u, e.userId? = some u → u = some userId

/-- Every effect of the request is allowed. -/
def OnlyAuthorised (items : List Item) : Prop :=
  ∀ e ∈ (processBatchOperationsBackground S loads xSessionApiKey items).2,
    Authorised S xSessionApiKey e

/-! ## When nothing else is done -/

/-- The conversation and the user an operation finds when it looks for them. -/
def foundUser (item : Item) : Option (String × String) :=
  (routed item.1).bind fun route =>
    (getUserId S item.2 route.1).toOption.map fun userId => (route.1, userId)

/-- The conversation whose session key an operation finds. -/
def foundKey (item : Item) : Option String :=
  (foundUser S item).bind fun found =>
    (getSessionApiKey S item.2 found.2 found.1).toOption.map fun _ => found.1

/-- The user an operation of another conversation finds. -/
def otherUser (conversationId : String) (item : Item) : Option String :=
  (foundUser S item).bind fun found =>
    if found.1 = conversationId then none else some found.2

/-- The user found last since the session key of the conversation was found, for another
conversation. -/
def strayUser (conversationId : String) (before : List Item) : Option String :=
  last (otherUser S conversationId) (since (foundKey S) conversationId before)

/-- The operation leads to a call. -/
def Acts (conversationId subpath : String) (op : BatchOperation) : Prop :=
  (dispatch loads none conversationId subpath op).isSome

/-- An operation that acts for the conversation whose session key was found last is allowed
to: the key matches, and unless it is about the metadata the user is still that of the
conversation. -/
def Verified (before : List Item) (item : Item) : Prop :=
  ∀ conversationId subpath, routed item.1 = some (conversationId, subpath) →
    last (foundKey S) before = some conversationId → Acts loads conversationId subpath item.1 →
    ∃ userId, KeyMatches S xSessionApiKey conversationId userId ∧
      (subpath = "metadata.json" ∨ ∀ u, strayUser S conversationId before = some u → u = userId)

/-! ## The effects -/

variable {S loads xSessionApiKey} {v : LoopVars} {before : List Item} {item : Item}
  {conversationId subpath : String} {userId : Option String} {op : BatchOperation} {e : Effect}

/-- What an effect says of itself. -/
theorem dispatch_eq_some (h : dispatch loads userId conversationId subpath op = some e) :
    e.conversationId = conversationId ∧
      e.userId? = if subpath = "metadata.json" then none else some userId := by
  unfold dispatch at h
  dsimp only at h
  split at h
  next hsub =>
    obtain ⟨content, -, rfl⟩ := Option.map_eq_some_iff.mp h
    subst hsub
    exact ⟨rfl, by simp [Effect.userId?]⟩
  next =>
    split at h
    next hsub =>
      obtain ⟨content, -, rfl⟩ := Option.map_eq_some_iff.mp h
      subst hsub
      exact ⟨rfl, by simp [Effect.userId?]⟩
    next =>
      split at h
      next hsub =>
        obtain ⟨content, -, rfl⟩ := Option.map_eq_some_iff.mp h
        exact ⟨rfl, by rw [if_pos hsub]; rfl⟩
      next hsub =>
        split at h
        next =>
          obtain ⟨content, -, rfl⟩ := Option.map_eq_some_iff.mp h
          exact ⟨rfl, by rw [if_neg hsub]; rfl⟩
        next => cases h

/-- Whether an operation acts does not depend on the user. -/
theorem acts_iff : Acts loads conversationId subpath op ↔
    ∃ e, dispatch loads userId conversationId subpath op = some e := by
  rw [← Option.isSome_iff_exists]
  unfold Acts dispatch
  dsimp only
  split
  next => rw [Option.isSome_map, Option.isSome_map]
  next =>
    split
    next => rw [Option.isSome_map, Option.isSome_map]
    next =>
      split
      next => rfl
      next =>
        split
        next => rw [Option.isSome_map, Option.isSome_map]
        next => rfl

/-! ## The lookups -/

/-- A lookup that does not break down finds what there is. -/
theorem getUserId_of_ok {faults : Faults} {u : String}
    (h : getUserId S faults conversationId = .ok u) : getUserId S {} conversationId = .ok u := by
  unfold getUserId at h ⊢
  split at h
  next => cases h
  next => exact h

theorem getSessionApiKey_of_ok {faults : Faults} {u : String} {key : Option String}
    (h : getSessionApiKey S faults u conversationId = .ok key) :
    getSessionApiKey S {} u conversationId = .ok key := by
  unfold getSessionApiKey at h ⊢
  split at h
  next => cases h
  next => exact h

theorem foundUser_of_routed (h : routed item.1 = some (conversationId, subpath)) :
    foundUser S item = (getUserId S item.2 conversationId).toOption.map
      fun userId => (conversationId, userId) := by
  unfold foundUser
  rw [h, Option.bind_some]

/-- An operation that finds no user finds no key. -/
theorem found_none (h : foundUser S item = none) :
    foundKey S item = none ∧ ∀ c, otherUser S c item = none := by
  unfold foundKey otherUser
  rw [h]
  exact ⟨rfl, fun _ => rfl⟩

theorem foundKey_of_user {u : String} (h : foundUser S item = some (conversationId, u)) :
    foundKey S item
      = (getSessionApiKey S item.2 u conversationId).toOption.map fun _ => conversationId := by
  unfold foundKey
  rw [h, Option.bind_some]

theorem otherUser_of_user {u c : String} (h : foundUser S item = some (conversationId, u)) :
    otherUser S c item = if conversationId = c then none else some u := by
  unfold otherUser
  rw [h, Option.bind_some]

/-! ## The variables of the loop -/

variable (S xSessionApiKey) in
/-- What the variables remember of the operations before. -/
structure Tracks (v : LoopVars) (before : List Item) : Prop where
  prev : v.prevConversationId = last (foundKey S) before
  user : ∀ c, v.prevConversationId = some c →
    ∃ u, getUserId S {} c = .ok u ∧ v.userId = some ((strayUser S c before).getD u)

theorem tracks_start : Tracks S {} [] := by
  constructor
  · rfl
  · intro c h
    cases h

/-- While a key is remembered an operation that finds no other one adds the user it finds. -/
theorem strayUser_concat (hlast : last (foundKey S) before = some conversationId)
    (hkey : foundKey S item = none ∨ foundKey S item = some conversationId) :
    strayUser S conversationId (before ++ [item])
      = (otherUser S conversationId item).or (strayUser S conversationId before) := by
  unfold strayUser
  rw [since_concat hlast hkey, last_concat]

/-- An operation that finds another key starts anew. -/
theorem strayUser_concat_new (hlast : last (foundKey S) before ≠ some conversationId)
    (hkey : foundKey S item = some conversationId)
    (hother : otherUser S conversationId item = none) :
    strayUser S conversationId (before ++ [item]) = none := by
  unfold strayUser
  rw [since_concat_new hlast hkey, ← List.nil_append [item], last_concat, hother]
  rfl

/-- An operation that leaves the variables alone finds nothing new. -/
theorem Tracks.stay (h : Tracks S v before)
    (hkey : foundKey S item = none ∨ foundKey S item = v.prevConversationId)
    (hother : ∀ c, v.prevConversationId = some c → otherUser S c item = none) :
    Tracks S v (before ++ [item]) := by
  have hprev : last (foundKey S) (before ++ [item]) = last (foundKey S) before := by
    rw [last_concat]
    rcases hkey with hkey | hkey
    · rw [hkey, Option.none_or]
    · rw [hkey, h.prev, Option.or_self]
  constructor
  · rw [hprev]
    exact h.prev
  · intro c hc
    obtain ⟨u, hu, huser⟩ := h.user c hc
    refine ⟨u, hu, ?_⟩
    have hlast : last (foundKey S) before = some c := h.prev ▸ hc
    rw [strayUser_concat hlast (hc ▸ hkey), hother c hc, Option.none_or]
    exact huser

/-- The check keeps the variables true to the operations before. -/
theorem Tracks.recheck (h : Tracks S v before)
    (hroute : routed item.1 = some (conversationId, subpath)) :
    Tracks S (recheck S xSessionApiKey item.2 v conversationId).1 (before ++ [item]) := by
  have huser := foundUser_of_routed (S := S) hroute
  unfold EventWebhook.recheck
  cases hfound : getUserId S item.2 conversationId with
  | error err =>
      rw [hfound] at huser
      obtain ⟨hkey, hother⟩ := found_none huser
      have hstay : Tracks S v (before ++ [item]) := h.stay (Or.inl hkey) fun c _ => hother c
      split
      · exact hstay
      · exact hstay
  | ok u =>
      rw [hfound] at huser
      have hkey := foundKey_of_user huser
      split
      next hne =>
        dsimp only
        cases hfound' : getSessionApiKey S item.2 u conversationId with
        | error err =>
            -- the user is remembered and the conversation is not
            rw [hfound'] at hkey
            constructor
            · rw [last_concat, hkey]
              exact h.prev
            · intro c hc
              obtain ⟨u', hu', -⟩ := h.user c hc
              refine ⟨u', hu', ?_⟩
              have hother : conversationId ≠ c := fun heq => hne (heq ▸ hc.symm)
              rw [strayUser_concat (h.prev ▸ hc) (Or.inl hkey), otherUser_of_user huser,
                if_neg hother]
              rfl
        | ok key =>
            rw [hfound'] at hkey
            constructor
            · rw [last_concat, hkey]
              rfl
            · intro c hc
              obtain rfl : conversationId = c := Option.some.inj hc
              refine ⟨u, getUserId_of_ok hfound, ?_⟩
              have hnew : last (foundKey S) before ≠ some conversationId :=
                fun heq => hne (heq.symm.trans h.prev.symm)
              rw [strayUser_concat_new hnew hkey ((otherUser_of_user huser).trans (if_pos rfl))]
              rfl
      next hsame =>
        rw [not_not] at hsame
        refine h.stay ?_ fun c hc => ?_
        · rw [hkey, ← hsame]
          cases getSessionApiKey S item.2 u conversationId with
          | error err => exact Or.inl rfl
          | ok key => exact Or.inr rfl
        · rw [otherUser_of_user huser]
          exact if_pos (Option.some.inj (hsame.trans hc))

theorem Tracks.processOperation (h : Tracks S v before) :
    Tracks S (processOperation S loads xSessionApiKey v item).1 (before ++ [item]) := by
  unfold EventWebhook.processOperation
  cases hroute : routed item.1 with
  | none =>
      have huser : foundUser S item = none := by
        unfold foundUser
        rw [hroute, Option.bind_none]
      obtain ⟨hkey, hother⟩ := found_none huser
      exact h.stay (Or.inl hkey) fun c _ => hother c
  | some route => exact h.recheck hroute

/-! ## One operation -/

/-- An operation goes on behind the check when its conversation is remembered, or when the
key it finds is the presented one. -/
theorem recheck_goesOn {faults : Faults}
    (h : (recheck S xSessionApiKey faults v conversationId).2) :
    (v.prevConversationId = some conversationId ∧
      (recheck S xSessionApiKey faults v conversationId).1 = v) ∨
    ∃ u, KeyMatches S xSessionApiKey conversationId u ∧
      (recheck S xSessionApiKey faults v conversationId).1.userId = some u := by
  unfold recheck at h ⊢
  split at h
  next hne =>
    rw [if_pos hne]
    cases hfound : getUserId S faults conversationId with
    | error err =>
        rw [hfound] at h
        cases h
    | ok u =>
        rw [hfound] at h
        dsimp only at h ⊢
        cases hfound' : getSessionApiKey S faults u conversationId with
        | error err =>
            rw [hfound'] at h
            cases h
        | ok key =>
            rw [hfound'] at h
            have hkey : key = xSessionApiKey := by simpa using h
            subst hkey
            exact Or.inr ⟨u, ⟨getUserId_of_ok hfound, getSessionApiKey_of_ok hfound'⟩, rfl⟩
  next hsame =>
    rw [if_neg hsame]
    exact Or.inl ⟨(not_not.mp hsame).symm, rfl⟩

/-- What an operation behind a key found before may do. -/
theorem authorised_remembered_iff {u : String} (huser : getUserId S {} conversationId = .ok u)
    (h : dispatch loads userId conversationId subpath op = some e) :
    Authorised S xSessionApiKey e ↔
      KeyMatches S xSessionApiKey conversationId u ∧
        (subpath = "metadata.json" ∨ userId = some u) := by
  obtain ⟨hconversation, huserId⟩ := dispatch_eq_some h
  have hunique : ∀ u', KeyMatches S xSessionApiKey conversationId u' → u' = u :=
    fun u' hkey => Except.ok.inj (hkey.1.symm.trans huser)
  unfold Authorised
  rw [hconversation, huserId]
  constructor
  · rintro ⟨u', hkey, hfor⟩
    obtain rfl := hunique u' hkey
    refine ⟨hkey, ?_⟩
    by_cases hsub : subpath = "metadata.json"
    · exact Or.inl hsub
    · rw [if_neg hsub] at hfor
      exact Or.inr (hfor userId rfl)
  · rintro ⟨hkey, hfor⟩
    refine ⟨u, hkey, fun u' hu' => ?_⟩
    by_cases hsub : subpath = "metadata.json"
    · rw [if_pos hsub] at hu'
      cases hu'
    · rw [if_neg hsub] at hu'
      exact (Option.some.inj hu').symm.trans (hfor.resolve_left hsub)

theorem getD_eq_iff {x : Option String} {u : String} :
    some (x.getD u) = some u ↔ ∀ u', x = some u' → u' = u := by
  cases x with
  | none => simp
  | some u' => simp

/-- **An operation does what the presented key allows exactly when it is verified.** -/
theorem authorised_processOperation_iff (h : Tracks S v before) :
    (∀ e, (processOperation S loads xSessionApiKey v item).2 = some e →
      Authorised S xSessionApiKey e) ↔ Verified S loads xSessionApiKey before item := by
  unfold processOperation Verified
  cases hroute : routed item.1 with
  | none => simp
  | some route =>
      obtain ⟨conversationId, subpath⟩ := route
      dsimp only
      constructor
      · rintro hall c sub ⟨⟩ hlast hacts
        have hprev : v.prevConversationId = some conversationId := h.prev.trans hlast
        obtain ⟨u, huser, hvuser⟩ := h.user conversationId hprev
        obtain ⟨e, he⟩ : ∃ e, dispatch loads v.userId conversationId subpath item.1 = some e :=
          acts_iff.mp hacts
        have hpass : recheck S xSessionApiKey item.2 v conversationId = (v, true) :=
          if_neg (not_not_intro hprev.symm)
        rw [hpass] at hall
        obtain ⟨hkey, hfor⟩ := (authorised_remembered_iff huser he).mp (hall e he)
        exact ⟨u, hkey, hfor.imp_right fun heq => getD_eq_iff.mp (hvuser.symm.trans heq)⟩
      · intro hverified e he
        split at he
        next hgoesOn =>
          rcases recheck_goesOn hgoesOn with ⟨hprev, hsame⟩ | ⟨u, hkey, huser⟩
          · rw [hsame] at he
            obtain ⟨u, huser, hvuser⟩ := h.user conversationId hprev
            obtain ⟨u', hkey, hfor⟩ := hverified conversationId subpath rfl
              (h.prev.symm.trans hprev) (acts_iff.mpr ⟨e, he⟩)
            obtain rfl : u' = u := Except.ok.inj (hkey.1.symm.trans huser)
            refine (authorised_remembered_iff huser he).mpr ⟨hkey, hfor.imp_right fun hstray => ?_⟩
            exact hvuser.trans (getD_eq_iff.mpr hstray)
          · exact (authorised_remembered_iff hkey.1 he).mpr ⟨hkey, Or.inr huser⟩
        next => cases he

/-! ## The request -/

variable (S loads xSessionApiKey) in
/-- One more operation at the end. -/
theorem process_concat (items : List Item) (item : Item) :
    processBatchOperationsBackground S loads xSessionApiKey (items ++ [item])
      = let s := processBatchOperationsBackground S loads xSessionApiKey items
        let t := processOperation S loads xSessionApiKey s.1 item
        (t.1, s.2 ++ t.2.toList) := by
  unfold processBatchOperationsBackground
  rw [List.foldl_concat]

theorem tracks_process (items : List Item) :
    Tracks S (processBatchOperationsBackground S loads xSessionApiKey items).1 items := by
  induction items using List.reverseRecOn with
  | nil => exact tracks_start
  | append_singleton items item ih =>
      rw [process_concat]
      exact ih.processOperation

/-- Every effect comes from one of the operations. -/
theorem mem_process_iff {items : List Item} :
    e ∈ (processBatchOperationsBackground S loads xSessionApiKey items).2 ↔
      ∃ before item after, items = before ++ item :: after ∧
        (processOperation S loads xSessionApiKey
          (processBatchOperationsBackground S loads xSessionApiKey before).1 item).2 = some e := by
  induction items using List.reverseRecOn with
  | nil => simp [processBatchOperationsBackground]
  | append_singleton items item ih =>
      rw [process_concat]
      dsimp only
      rw [List.mem_append, ih, Option.mem_toList]
      constructor
      · rintro (⟨before, old, after, rfl, he⟩ | he)
        · exact ⟨before, old, after ++ [item], by simp, he⟩
        · exact ⟨items, item, [], rfl, he⟩
      · rintro ⟨before, found, after, heq, he⟩
        rcases List.eq_nil_or_concat after with rfl | ⟨after', last, rfl⟩
        · obtain ⟨rfl, hsame⟩ := List.append_inj' heq rfl
          cases hsame
          exact Or.inr he
        · rw [List.concat_eq_append, ← List.cons_append, ← List.append_assoc] at heq
          obtain ⟨rfl, -⟩ := List.append_inj' heq rfl
          exact Or.inl ⟨before, found, after', rfl, he⟩

/-- **A request does only what its key allows exactly when every operation is verified.** -/
theorem onlyAuthorised_iff (items : List Item) :
    OnlyAuthorised S loads xSessionApiKey items ↔
      ∀ before item after, items = before ++ item :: after →
        Verified S loads xSessionApiKey before item := by
  unfold OnlyAuthorised
  constructor
  · intro hall before item after heq
    have htracks : Tracks S
        (processBatchOperationsBackground S loads xSessionApiKey before).1 before :=
      tracks_process before
    refine (authorised_processOperation_iff htracks).mp ?_
    exact fun e he => hall e (mem_process_iff.mpr ⟨before, item, after, heq, he⟩)
  · intro hall e he
    obtain ⟨before, item, after, heq, he⟩ := mem_process_iff.mp he
    exact (authorised_processOperation_iff (tracks_process before)).mpr
      (hall before item after heq) e he

/-- One conversation, which runs. -/
def oneConversation : Services where
  metadata := { rows := [{ conversationId := "c", userId := "alice" }], nodup := by simp }
  runtimeOf sid :=
    if sid = "c" then some { sessionId := "c", runtimeId := some "r", sessionApiKey := some "key" }
    else none

/-- The same file written twice. -/
def twoWrites : List Item :=
  [({ method := .POST, path := "sessions/c/agent_state.pkl", content := some "x" }, {}),
    ({ method := .POST, path := "sessions/c/agent_state.pkl", content := some "y" }, {})]

theorem not_onlyAuthorised_twoWrites :
    ¬ OnlyAuthorised oneConversation (fun _ => none) (some "guess") twoWrites := by
  intro h
  have hdone : (processBatchOperationsBackground oneConversation (fun _ => none) (some "guess")
      twoWrites).2 = [.updateAgentState (some "alice") "c" "y".toUTF8] := rfl
  have hmem : Effect.updateAgentState (some "alice") "c" "y".toUTF8 ∈
      (processBatchOperationsBackground oneConversation (fun _ => none) (some "guess")
        twoWrites).2 := by
    rw [hdone]
    exact List.mem_singleton.mpr rfl
  obtain ⟨userId, ⟨huser, hkey⟩, -⟩ := h _ hmem
  have halice : userId = "alice" := by
    cases huser
    rfl
  subst halice
  revert hkey
  decide

end OpenHands.EventWebhook
