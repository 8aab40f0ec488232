/-
# The last write of a file

From a write of a nested runtime to the call that the app server makes for it: the write is queued,
its batch is taken out of the queue because of its size, by the timer or by a flush, and the items
of the batch are processed one after the other.  A batch keeps the last update of each path, so
earlier writes may never arrive; `last_delivered` says that the last one does, and that nothing
older comes after it.
-/
import OpenHands.SingleWrites

namespace OpenHands.EventWebhook

open Saas WebHook LastFound

/-- The file an effect is about. -/
def Effect.route : Effect → String × String
  | updateAgentState _ conversationId _ => (conversationId, "agent_state.pkl")
  | updateConversationStats _ conversationId _ => (conversationId, "conversation_stats.pkl")
  | updateConversationMetadata conversationId _ => (conversationId, "metadata.json")
  | processEvent _ conversationId subpath _ => (conversationId, subpath)

/-- The effect, if it is about the file. -/
def about (route : String × String) (effect : Effect) : Option Effect :=
  if effect.route = route then some effect else none

/-- The update, if it is one of the path. -/
def updateOf (path : String) (update : Update) : Option QueuedUpdate :=
  if update.1 = path then some update.2 else none

/-! ## The last update of a path -/

section Updates

variable {path : String} {updates : List Update}

theorem get?_ofEntries_eq_last (updates : List Update) :
    (PyDict.ofEntries updates).get? path = last (updateOf path) updates := by
  induction updates using List.reverseRecOn with
  | nil => rfl
  | append_singleton updates update ih =>
      rw [PyDict.ofEntries_concat, PyDict.get?_set, last_concat, ih]
      unfold updateOf
      by_cases hpath : path = update.1
      · rw [if_pos hpath, if_pos hpath.symm]
        rfl
      · rw [if_neg hpath, if_neg (Ne.symm hpath)]
        rfl

/-- A batch has the last update of each path. -/
theorem last_entries (updates : List Update) :
    last (updateOf path) (PyDict.ofEntries updates).entries = last (updateOf path) updates := by
  rw [← get?_ofEntries_eq_last, PyDict.ofEntries_entries, get?_ofEntries_eq_last]

/-- The batches have, in their order, the last update of each path. -/
theorem last_flatMap_entries (sends : List Send) :
    last (updateOf path)
        ((sends.map fun send => PyDict.ofEntries send.updates).flatMap PyDict.entries)
      = last (updateOf path) (sends.flatMap Send.updates) := by
  induction sends with
  | nil => rfl
  | cons send sends ih =>
      rw [List.map_cons, List.flatMap_cons, List.flatMap_cons, last_append, last_append, ih,
        last_entries]

end Updates

/-- Every update is in a batch that is out, or among those since. -/
theorem updates_step (r : Recorded) (call : Call) :
    (r.step call).sends.flatMap Send.updates ++ (r.step call).updates
      = r.sends.flatMap Send.updates ++ r.updates ++ call.updates := by
  unfold Recorded.step
  dsimp only
  split_ifs
  · simp
  · simp

theorem updates_run (r : Recorded) (calls : List Call) :
    (Run.run Recorded.step r calls).sends.flatMap Send.updates
        ++ (Run.run Recorded.step r calls).updates
      = r.sends.flatMap Send.updates ++ r.updates ++ calls.flatMap Call.updates := by
  induction calls generalizing r with
  | nil => simp [Run.run]
  | cons call calls ih =>
      rw [Run.run, List.foldl_cons, List.flatMap_cons, ← List.append_assoc, ← updates_step r call]
      exact ih (r.step call)

/-- After a flush every update is in a batch that is out. -/
theorem updates_flushed (files : Files) (limit : Option Int) (calls : List Call) :
    (flushed files limit calls).sends.flatMap Send.updates = calls.flatMap Call.updates := by
  have hrun := updates_run (.start files limit) (calls ++ [.flush])
  have hnone : (flushed files limit calls).updates = [] := by
    rw [flushed_eq]
    exact updates_step_flush _
  change (flushed files limit calls).sends.flatMap _ ++ (flushed files limit calls).updates = _
    at hrun
  rw [hnone, List.append_nil, List.flatMap_append] at hrun
  simpa [Recorded.start, Call.updates] using hrun

/-! ## The file of an effect -/

section Effects

variable {S : Services} {loads : ByteArray → Option PyJson} {xSessionApiKey : Option String}
  {conversationId subpath path : String} {userId : Option String} {effect : Effect}

theorem route_of_dispatch {op : BatchOperation}
    (h : dispatch loads userId conversationId subpath op = some effect) :
    effect.route = (conversationId, subpath) := by
  unfold dispatch at h
  dsimp only at h
  split_ifs at h with hstate hstats hmetadata hevents
  · obtain ⟨content, -, rfl⟩ := Option.map_eq_some_iff.mp h
    rw [hstate]
    rfl
  · obtain ⟨content, -, rfl⟩ := Option.map_eq_some_iff.mp h
    rw [hstats]
    rfl
  · obtain ⟨content, -, rfl⟩ := Option.map_eq_some_iff.mp h
    rw [hmetadata]
    rfl
  · obtain ⟨content, -, rfl⟩ := Option.map_eq_some_iff.mp h
    rfl

/-- A directory of a conversation leads to nothing. -/
theorem dispatch_nil (op : BatchOperation) : dispatch loads userId conversationId "" op = none := by
  unfold dispatch
  simp

/-- The path of a file of a conversation. -/
theorem path_of_parse (hparse : parseConversationIdAndSubpath path = some (conversationId, subpath))
    (hsub : subpath ≠ "") :
    path.toList = "sessions".toList ++ '/' :: (conversationId.toList ++ '/' :: subpath.toList) := by
  unfold parseConversationIdAndSubpath at hparse
  dsimp only at hparse
  split_ifs at hparse with hhead
  obtain ⟨conversation, hitem, hroute⟩ := Option.map_eq_some_iff.mp hparse
  cases hroute
  have hjoin : ['/'].intercalate (path.toList.splitOn '/') = path.toList :=
    List.intercalate_splitOn '/'
  clear hparse
  -- the pieces are taken apart as `sessions`, the conversation and the rest
  generalize path.toList.splitOn '/' = items at hhead hitem hsub hjoin ⊢
  rw [← hjoin]
  cases items with
  | nil => cases hhead
  | cons first items =>
      cases items with
      | nil => cases hitem
      | cons second items =>
          cases hhead
          cases hitem
          cases items with
          | nil => exact absurd rfl hsub
          | cons third items =>
              rw [List.intercalate_cons_cons, List.intercalate_cons_cons, String.toList_ofList,
                String.toList_ofList]
              simp

/-- Two paths of one file are the same. -/
theorem eq_of_parse {path' : String} (hsub : subpath ≠ "")
    (hparse : parseConversationIdAndSubpath path = some (conversationId, subpath))
    (hparse' : parseConversationIdAndSubpath path' = some (conversationId, subpath)) :
    path = path' :=
  String.toList_inj.mp ((path_of_parse hparse hsub).trans (path_of_parse hparse' hsub).symm)

/-- What an item leads to is about the file of its path. -/
theorem parse_of_processOperation {update : Update} {v : LoopVars}
    (h : (processOperation S loads xSessionApiKey v (itemOf update)).2 = some effect) :
    parseConversationIdAndSubpath update.1 = some effect.route := by
  obtain ⟨path, update⟩ := update
  rcases eq_ofWrite_or_ofDelete update with ⟨contents, rfl⟩ | rfl
  · unfold processOperation itemOf at h
    rw [routed_ofWrite] at h
    cases hparse : parseConversationIdAndSubpath path with
    | none =>
        rw [hparse] at h
        cases h
    | some route =>
        rw [hparse] at h
        dsimp only at h
        split_ifs at h
        rw [route_of_dispatch h]
  · cases h

/-- Only updates of the path lead to effects about its file. -/
theorem bind_about (hsub : subpath ≠ "")
    (hparse : parseConversationIdAndSubpath path = some (conversationId, subpath))
    (update : Update) :
    (processOperation S loads xSessionApiKey {} (itemOf update)).2.bind
        (about (conversationId, subpath))
      = (updateOf path update).bind fun queued =>
        (processOperation S loads xSessionApiKey {} (itemOf (path, queued))).2.bind
          (about (conversationId, subpath)) := by
  unfold updateOf
  by_cases hpath : update.1 = path
  · rw [if_pos hpath, Option.bind_some, ← hpath]
  · rw [if_neg hpath, Option.bind_none]
    cases heffect : (processOperation S loads xSessionApiKey {} (itemOf update)).2 with
    | none => rfl
    | some effect =>
        refine if_neg fun hroute => hpath ?_
        have hupdate := parse_of_processOperation heffect
        rw [hroute] at hupdate
        exact eq_of_parse hsub hupdate hparse

end Effects

/-- The batches of a flushed run. -/
theorem submitted_flushed (files : Files) (limit : Option Int) (calls : List Call) :
    (flushed files limit calls).store.submitted
      = (flushed files limit calls).sends.map fun send => PyDict.ofEntries send.updates :=
  ((faithful_start files limit).run _).submitted_eq

/-- The batches write to the paths of the calls. -/
theorem allAuthentic_flushed {S : Services} {xSessionApiKey : Option String} {files : Files}
    {limit : Option Int} {calls : List Call}
    (hauthentic : ∀ path contents, Call.write path contents ∈ calls →
      Authentic S xSessionApiKey path) :
    AllAuthentic S xSessionApiKey (flushed files limit calls).store.submitted := by
  intro batch hbatch update hupdate hwrite
  rw [submitted_flushed] at hbatch
  obtain ⟨send, hsend, rfl⟩ := List.mem_map.mp hbatch
  have hmem : update ∈ calls.flatMap Call.updates := by
    rw [← updates_flushed files limit calls]
    exact List.mem_flatMap.mpr ⟨send, hsend, PyDict.mem_of_mem_ofEntries hupdate⟩
  obtain ⟨call, hcall, hupdate⟩ := List.mem_flatMap.mp hmem
  cases call with
  | write path contents =>
      obtain rfl := List.mem_singleton.mp hupdate
      exact hauthentic path contents hcall
  | delete path =>
      obtain rfl := List.mem_singleton.mp hupdate
      cases hwrite
  | timer | flush => cases hupdate

/-- **The last write of a file arrives.**  When the presented key is that of every conversation that
is written to, and the last call for the path of a file is a write, then the last thing that the
batches of a flushed run lead to for the file is what that write leads to. -/
theorem last_delivered {S : Services} {loads : ByteArray → Option PyJson}
    {xSessionApiKey : Option String} {files : Files} {limit : Option Int} {calls : List Call}
    {path conversationId subpath userId : String} {contents : Contents} {effect : Effect}
    (hauthentic : ∀ path contents, Call.write path contents ∈ calls →
      Authentic S xSessionApiKey path)
    (hparse : parseConversationIdAndSubpath path = some (conversationId, subpath))
    (hkey : KeyMatches S xSessionApiKey conversationId userId)
    (hlast : last (updateOf path) (calls.flatMap Call.updates) = some (.ofWrite contents))
    (heffect : dispatch loads (some userId) conversationId subpath
      (batchItem path (.ofWrite contents)) = some effect) :
    last (about (conversationId, subpath))
        (deliverBatches S loads xSessionApiKey (flushed files limit calls).store.submitted)
      = some effect := by
  have hsub : subpath ≠ "" := by
    rintro rfl
    rw [dispatch_nil] at heffect
    cases heffect
  rw [deliverBatches_eq_flatMap (allAuthentic_flushed hauthentic), last_flatMap,
    submitted_flushed, funext (bind_about hsub hparse)]
  refine last_bind _ (k := .ofWrite contents) ((last_flatMap_entries _).trans ?_) ?_
  · rw [updates_flushed]
    exact hlast
  · rw [processOperation_ofWrite hparse hkey, heffect]
    exact if_pos (route_of_dispatch heffect)

/-- The state of an agent is written in two batches, and again in the second. -/
def statesOfAgent : List Call :=
  [.write "sessions/c/agent_state.pkl" (.str "x"), .timer,
    .write "sessions/c/agent_state.pkl" (.str "y"), .delete "sessions/c/events",
    .write "sessions/c/agent_state.pkl" (.str "z")]

theorem last_delivered_statesOfAgent :
    last (about ("c", "agent_state.pkl"))
        (deliverBatches oneConversation (fun _ => none) (some "key")
          (flushed (fun _ => none) none statesOfAgent).store.submitted)
      = some (.updateAgentState (some "alice") "c" "z".toUTF8) := by
  have hparse : parseConversationIdAndSubpath "sessions/c/agent_state.pkl"
      = some ("c", "agent_state.pkl") := rfl
  refine last_delivered ?_ hparse ⟨rfl, rfl⟩ rfl rfl
  intro path contents hwrite conversationId subpath hroute
  have hpath : path = "sessions/c/agent_state.pkl" := by
    simp only [statesOfAgent, List.mem_cons, List.not_mem_nil, Call.write.injEq, reduceCtorEq,
      or_false, false_or] at hwrite
    rcases hwrite with ⟨rfl, -⟩ | ⟨rfl, -⟩ | ⟨rfl, -⟩
    · rfl
    · rfl
    · rfl
  rw [hpath, hparse] at hroute
  cases hroute
  exact ⟨"alice", rfl, rfl⟩

end OpenHands.EventWebhook
