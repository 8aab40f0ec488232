/-
# Writes that come alone

A nested runtime tells of the updates of its files in batches or one by one.  `on_write` and
`on_delete` of enterprise/server/routes/event_webhook.py take the single ones; they have branches of
their own beside those of the batches.  `deliverBatches_eq_iff` says when both ways of delivery do
the same.
-/
import OpenHands.MirroredFiles
import OpenHands.WebhookKeys

namespace OpenHands.EventWebhook

open Saas WebHook

/-- The answer to a request. -/
inductive Response
  | ok
  | badRequest
  | forbidden
  | internalServerError
  deriving DecidableEq, Repr

/-- An update of a file. -/
abbrev Update := String × QueuedUpdate

section Requests

variable (S : Services) (loads : ByteArray → Option PyJson) (xSessionApiKey : Option String)

/-- `on_write`, up to what the call does that it leads to. -/
def onWrite (path : String) (body : ByteArray) (faults : Faults) : Response × Option Effect :=
  match parseConversationIdAndSubpath path with
  | none => (.badRequest, none)
  | some (conversationId, subpath) =>
    match getUserId S faults conversationId with
    | .error _ => (.internalServerError, none)
    | .ok userId =>
      match getSessionApiKey S faults userId conversationId with
      | .error _ => (.internalServerError, none)
      | .ok sessionApiKey =>
        if sessionApiKey ≠ xSessionApiKey then (.forbidden, none)
        else if subpath = "agent_state.pkl" then
          (.ok, some (.updateAgentState (some userId) conversationId body))
        else
          match loads body with
          | none => (.badRequest, none)
          | some content =>
            if subpath = "metadata.json" then
              (.ok, some (.updateConversationMetadata conversationId content))
            else if "events/".toList.isPrefixOf subpath.toList then
              (.ok, some (.processEvent (some userId) conversationId subpath content))
            else if "event_cache".toList.isPrefixOf subpath.toList then (.ok, none)
            else (.badRequest, none)

/-- `on_delete`. -/
def onDelete : Response × Option Effect := (.ok, none)

/-- The request for an update. -/
def single (update : Update) (faults : Faults) : Response × Option Effect :=
  match update.2.contents with
  | some contents => onWrite S loads xSessionApiKey update.1 contents.toBytes faults
  | none => onDelete

/-- What the updates lead to, one request each. -/
def deliver (updates : List Update) : List Effect :=
  updates.flatMap fun update => (single S loads xSessionApiKey update {}).2.toList

/-- The item of a batch for an update. -/
def itemOf (update : Update) : Item := (batchItem update.1 update.2, {})

/-- What the batches lead to. -/
def deliverBatches (batches : List (PyDict String QueuedUpdate)) : List Effect :=
  batches.flatMap fun batch =>
    (processBatchOperationsBackground S loads xSessionApiKey
      ((sendBatchRequest batch).map (·, {}))).2

end Requests

section Delivery

variable {S : Services} {loads : ByteArray → Option PyJson} {xSessionApiKey : Option String}
  {v : LoopVars} {update : Update}

variable (S xSessionApiKey) in
/-- The presented key is that of the conversation of the path. -/
def Authentic (path : String) : Prop :=
  ∀ conversationId subpath, parseConversationIdAndSubpath path = some (conversationId, subpath) →
    ∃ userId, KeyMatches S xSessionApiKey conversationId userId

/-- The update is a write of the statistics of a conversation. -/
def WritesStats (update : Update) : Prop :=
  update.2.operation = .write ∧
    ∃ conversationId, parseConversationIdAndSubpath update.1
      = some (conversationId, "conversation_stats.pkl")

variable (S xSessionApiKey) in
/-- The conversation that is remembered has the presented key, and its user is remembered. -/
def Settled (v : LoopVars) : Prop :=
  ∀ conversationId, v.prevConversationId = some conversationId →
    ∃ userId, v.userId = some userId ∧ KeyMatches S xSessionApiKey conversationId userId

theorem settled_start : Settled S xSessionApiKey {} := by
  intro conversationId h
  cases h

/-- Behind the check. -/
theorem recheck_of_keyMatches {conversationId userId : String} (hv : Settled S xSessionApiKey v)
    (hkey : KeyMatches S xSessionApiKey conversationId userId) :
    recheck S xSessionApiKey {} v conversationId
      = (⟨some conversationId, some userId⟩, true) := by
  obtain ⟨huser, hsession⟩ := hkey
  unfold recheck
  -- the loop skips the look-up for the conversation it checked last
  by_cases hprev : some conversationId = v.prevConversationId
  · rw [if_neg (not_not_intro hprev)]
    -- what it kept from then is what a look-up would find now
    obtain ⟨userId', huserId, hkey'⟩ := hv conversationId hprev.symm
    have hsame : userId' = userId := Except.ok.inj (hkey'.1.symm.trans huser)
    obtain ⟨prev, user⟩ := v
    dsimp only at hprev huserId
    rw [← hprev, huserId, hsame]
  · rw [if_pos hprev, huser]
    dsimp only
    rw [hsession]
    simp

/-- What an item of a batch leads to, whatever came before it. -/
theorem processOperation_of_authentic {item : BatchOperation} (hv : Settled S xSessionApiKey v)
    (hkey : ∀ route, routed item = some route →
      ∃ userId, KeyMatches S xSessionApiKey route.1 userId) :
    Settled S xSessionApiKey (processOperation S loads xSessionApiKey v (item, {})).1 ∧
      (processOperation S loads xSessionApiKey v (item, {})).2
        = (processOperation S loads xSessionApiKey {} (item, {})).2 := by
  unfold processOperation
  dsimp only
  cases hroute : routed item with
  | none => exact ⟨hv, rfl⟩
  | some route =>
      obtain ⟨conversationId, subpath⟩ := route
      obtain ⟨userId, hmatch⟩ := hkey _ hroute
      dsimp only
      rw [recheck_of_keyMatches hv hmatch, recheck_of_keyMatches settled_start hmatch]
      refine ⟨?_, rfl⟩
      rintro _ ⟨⟩
      exact ⟨userId, rfl, hmatch⟩

/-- A batch leads to what its items lead to alone. -/
theorem process_of_authentic (items : List BatchOperation)
    (hkey : ∀ item ∈ items, ∀ route, routed item = some route →
      ∃ userId, KeyMatches S xSessionApiKey route.1 userId) :
    Settled S xSessionApiKey
        (processBatchOperationsBackground S loads xSessionApiKey (items.map (·, {}))).1 ∧
      (processBatchOperationsBackground S loads xSessionApiKey (items.map (·, {}))).2
        = items.flatMap fun item =>
          (processOperation S loads xSessionApiKey {} (item, {})).2.toList := by
  induction items using List.reverseRecOn with
  | nil => exact ⟨settled_start, rfl⟩
  | append_singleton items item ih =>
      obtain ⟨hsettled, heffects⟩ := ih fun item hitem => hkey item (List.mem_append_left _ hitem)
      obtain ⟨hafter, heffect⟩ := processOperation_of_authentic hsettled
        (hkey item (List.mem_append_right _ List.mem_cons_self))
      rw [List.map_append, List.map_singleton, process_concat]
      refine ⟨hafter, ?_⟩
      dsimp only
      rw [heffects, heffect, List.flatMap_append, List.flatMap_singleton]

/-! ## One update -/

/-- An update writes or deletes. -/
theorem eq_ofWrite_or_ofDelete (update : QueuedUpdate) :
    (∃ contents, update = .ofWrite contents) ∨ update = .ofDelete := by
  obtain ⟨operation, contents, valid⟩ := update
  cases contents with
  | none =>
      cases operation with
      | write => simp at valid
      | delete => exact Or.inr rfl
  | some contents =>
      cases operation with
      | write => exact Or.inl ⟨contents, rfl⟩
      | delete => simp at valid

/-- The item of a write. -/
theorem batchItem_ofWrite (path : String) (contents : Contents) :
    (batchItem path (.ofWrite contents)).method = .POST ∧
      (batchItem path (.ofWrite contents)).path = path := by
  cases contents with
  | str s => exact ⟨rfl, rfl⟩
  | bytes b =>
      unfold batchItem QueuedUpdate.ofWrite
      dsimp only
      cases String.fromUTF8? b with
      | none => exact ⟨rfl, rfl⟩
      | some content => exact ⟨rfl, rfl⟩

/-- The paths that are skipped are not those of a conversation. -/
theorem routed_ofWrite (path : String) (contents : Contents) :
    routed (batchItem path (.ofWrite contents)) = parseConversationIdAndSubpath path := by
  obtain ⟨hmethod, hpath⟩ := batchItem_ofWrite path contents
  unfold routed
  rw [hmethod, hpath, if_neg (not_not_intro rfl)]
  split_ifs with hskipped
  · simp only [List.mem_cons, List.not_mem_nil, or_false] at hskipped
    rcases hskipped with rfl | rfl
    · rfl
    · rfl
  · rfl

/-- A write of a conversation with the presented key, in a batch. -/
theorem processOperation_ofWrite {path : String} {contents : Contents}
    {conversationId subpath userId : String}
    (hparse : parseConversationIdAndSubpath path = some (conversationId, subpath))
    (hkey : KeyMatches S xSessionApiKey conversationId userId) :
    (processOperation S loads xSessionApiKey {} (itemOf (path, .ofWrite contents))).2
      = dispatch loads (some userId) conversationId subpath
        (batchItem path (.ofWrite contents)) := by
  unfold processOperation itemOf
  rw [routed_ofWrite, hparse]
  dsimp only
  rw [recheck_of_keyMatches settled_start hkey]
  exact if_pos rfl

/-- **One write**: unless it is one of statistics both ways of delivery lead to the same. -/
theorem single_eq_processOperation
    (hauthentic : update.2.operation = .write → Authentic S xSessionApiKey update.1)
    (hstats : ¬ WritesStats update) :
    (single S loads xSessionApiKey update {}).2
      = (processOperation S loads xSessionApiKey {} (itemOf update)).2 := by
  obtain ⟨path, update⟩ := update
  rcases eq_ofWrite_or_ofDelete update with ⟨contents, rfl⟩ | rfl
  · change (onWrite S loads xSessionApiKey path contents.toBytes {}).2 = _
    unfold onWrite
    cases hparse : parseConversationIdAndSubpath path with
    | none =>
        unfold processOperation itemOf
        rw [routed_ofWrite, hparse]
    | some route =>
        obtain ⟨conversationId, subpath⟩ := route
        obtain ⟨userId, hkey⟩ := hauthentic rfl conversationId subpath hparse
        have hsub : subpath ≠ "conversation_stats.pkl" := by
          rintro rfl
          exact hstats ⟨rfl, conversationId, hparse⟩
        rw [processOperation_ofWrite hparse hkey]
        unfold dispatch
        dsimp only
        rw [hkey.1, getContent_batchItem]
        dsimp only
        rw [hkey.2]
        dsimp only [Except.toOption, Option.bind]
        rw [if_neg (not_not_intro rfl), if_neg hsub]
        cases loads contents.toBytes with
        | none =>
            simp only [Option.map_none, ite_self]
            split_ifs <;> rfl
        | some content => split_ifs <;> rfl
  · rfl

/-- Alone, nothing leads to new statistics: the route has no branch for them. -/
theorem single_ne_stats (update : Update) (userId : Option String) (conversationId : String)
    (content : ByteArray) :
    (single S loads xSessionApiKey update {}).2
      ≠ some (.updateConversationStats userId conversationId content) := by
  unfold single
  cases update.2.contents with
  | none => exact nofun
  | some contents =>
      dsimp only
      unfold onWrite
      cases parseConversationIdAndSubpath update.1 with
      | none => exact nofun
      | some route =>
          dsimp only
          cases getUserId S {} route.1 with
          | error failure => exact nofun
          | ok owner =>
              dsimp only
              cases getSessionApiKey S {} owner route.1 with
              | error failure => exact nofun
              | ok sessionApiKey =>
                  dsimp only
                  cases loads contents.toBytes with
                  | none => split_ifs <;> exact nofun
                  | some content' => split_ifs <;> exact nofun

/-- In a batch a write of statistics leads to new ones. -/
theorem processOperation_stats (hauthentic : Authentic S xSessionApiKey update.1)
    (hstats : WritesStats update) :
    ∃ userId conversationId content,
      (processOperation S loads xSessionApiKey {} (itemOf update)).2
        = some (.updateConversationStats userId conversationId content) := by
  obtain ⟨path, update⟩ := update
  obtain ⟨hwrite, conversationId, hparse⟩ := hstats
  obtain ⟨userId, hkey⟩ := hauthentic conversationId _ hparse
  rcases eq_ofWrite_or_ofDelete update with ⟨contents, rfl⟩ | rfl
  · refine ⟨some userId, conversationId, contents.toBytes, ?_⟩
    rw [processOperation_ofWrite hparse hkey]
    unfold dispatch
    rw [getContent_batchItem]
    rfl
  · cases hwrite

/-! ## All updates -/

variable (S xSessionApiKey) in
/-- The presented key is that of every conversation that is written to. -/
def AllAuthentic (batches : List (PyDict String QueuedUpdate)) : Prop :=
  ∀ batch ∈ batches, ∀ update ∈ batch.entries, update.2.operation = .write →
    Authentic S xSessionApiKey update.1

/-- What a batch leads to. -/
theorem process_sendBatchRequest (batch : PyDict String QueuedUpdate)
    (hauthentic : ∀ update ∈ batch.entries, update.2.operation = .write →
      Authentic S xSessionApiKey update.1) :
    (processBatchOperationsBackground S loads xSessionApiKey
        ((sendBatchRequest batch).map (·, {}))).2
      = batch.entries.flatMap fun update =>
        (processOperation S loads xSessionApiKey {} (itemOf update)).2.toList := by
  refine (process_of_authentic (sendBatchRequest batch) ?_).2.trans ?_
  · intro item hitem route hroute
    obtain ⟨⟨path, update⟩, hupdate, rfl⟩ := List.mem_map.mp hitem
    rcases eq_ofWrite_or_ofDelete update with ⟨contents, rfl⟩ | rfl
    · rw [routed_ofWrite] at hroute
      exact hauthentic _ hupdate rfl route.1 route.2 hroute
    · cases hroute
  · unfold sendBatchRequest
    rw [List.flatMap_map]
    rfl

/-- What the batches lead to. -/
theorem deliverBatches_eq_flatMap {batches : List (PyDict String QueuedUpdate)}
    (hauthentic : AllAuthentic S xSessionApiKey batches) :
    deliverBatches S loads xSessionApiKey batches
      = (batches.flatMap PyDict.entries).flatMap fun update =>
        (processOperation S loads xSessionApiKey {} (itemOf update)).2.toList := by
  rw [List.flatMap_assoc]
  exact List.flatMap_congr fun batch hbatch =>
    process_sendBatchRequest batch (hauthentic batch hbatch)

/-- **Both ways of delivery.**  However the updates of the conversations with the presented key are
cut into batches, the batches lead to what the updates lead to alone, in the same order, exactly when
none of them writes the statistics of a conversation. -/
theorem deliverBatches_eq_iff {batches : List (PyDict String QueuedUpdate)}
    (hauthentic : AllAuthentic S xSessionApiKey batches) :
    deliverBatches S loads xSessionApiKey batches
        = deliver S loads xSessionApiKey (batches.flatMap PyDict.entries) ↔
      ∀ batch ∈ batches, ∀ update ∈ batch.entries, ¬ WritesStats update := by
  rw [deliverBatches_eq_flatMap hauthentic]
  unfold deliver
  constructor
  · intro hsame batch hbatch update hupdate hstats
    obtain ⟨userId, conversationId, content, heffect⟩ :=
      processOperation_stats (hauthentic batch hbatch update hupdate hstats.1) hstats
    -- the statistics are among the effects of the batches, and never of single requests
    have hmem : Effect.updateConversationStats userId conversationId content ∈
        (batches.flatMap PyDict.entries).flatMap fun update =>
          (processOperation S loads xSessionApiKey {} (itemOf update)).2.toList := by
      refine List.mem_flatMap.mpr ⟨update, List.mem_flatMap.mpr ⟨batch, hbatch, hupdate⟩, ?_⟩
      rw [heffect]
      exact List.mem_cons_self
    rw [hsame] at hmem
    obtain ⟨update', -, hmem⟩ := List.mem_flatMap.mp hmem
    exact single_ne_stats update' _ _ _ (Option.mem_toList.mp hmem)
  · intro hnone
    refine List.flatMap_congr fun update hupdate => ?_
    obtain ⟨batch, hbatch, hupdate⟩ := List.mem_flatMap.mp hupdate
    rw [single_eq_processOperation (hauthentic batch hbatch update hupdate)
      (hnone batch hbatch update hupdate)]

/-- The state of an agent with the deletion of an event, and the state again. -/
def twoBatches : List (PyDict String QueuedUpdate) :=
  [(PyDict.empty.set "sessions/c/agent_state.pkl" (.ofWrite (.str "x"))).set
      "sessions/c/events/0.json" .ofDelete,
    PyDict.empty.set "sessions/c/agent_state.pkl" (.ofWrite (.str "y"))]

theorem deliverBatches_eq_twoBatches :
    deliverBatches oneConversation (fun _ => none) (some "key") twoBatches
      = deliver oneConversation (fun _ => none) (some "key")
          (twoBatches.flatMap PyDict.entries) := by
  have hparse : parseConversationIdAndSubpath "sessions/c/agent_state.pkl"
      = some ("c", "agent_state.pkl") := rfl
  have hwrites : ∀ batch ∈ twoBatches, ∀ update ∈ batch.entries, update.2.operation = .write →
      update.1 = "sessions/c/agent_state.pkl" := by
    intro batch hbatch update hupdate hwrite
    rcases List.mem_cons.mp hbatch with rfl | hbatch
    · rcases List.mem_cons.mp hupdate with rfl | hupdate
      · rfl
      · obtain rfl := List.mem_singleton.mp hupdate
        cases hwrite
    · obtain rfl := List.mem_singleton.mp hbatch
      obtain rfl := List.mem_singleton.mp hupdate
      rfl
  refine (deliverBatches_eq_iff ?_).mpr ?_
  · intro batch hbatch update hupdate hwrite conversationId subpath hroute
    rw [hwrites batch hbatch update hupdate hwrite, hparse] at hroute
    cases hroute
    exact ⟨"alice", rfl, rfl⟩
  · rintro batch hbatch update hupdate ⟨hwrite, conversationId, hroute⟩
    rw [hwrites batch hbatch update hupdate hwrite, hparse] at hroute
    simp at hroute

end Delivery

end OpenHands.EventWebhook
