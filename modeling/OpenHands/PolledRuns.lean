/-
# What polling copies

The store of an info ends where the files end, so that no event lies between the first
missing id and that end: a pass reads nothing and copies nothing, whatever the nested runtime
has.  A server that starts without files keeps none, and these are the files of the nested
runtime just as long as that has no events.
-/
import Mathlib
import OpenHands.PolledEvents

namespace OpenHands.Saas

open Run

variable {E D : Type*} {codec : Codec E D}

/-! ## The infos -/

namespace Services

variable {S : Services}

theorem exists_of_mem_mapM {userId : Option String} {runtimes : List Runtime}
    {running : List (Option LoopInfo)}
    (h : runtimes.mapM (S.runningLoopInfo userId) = .ok running) {info : LoopInfo}
    (hinfo : some info ∈ running) :
    ∃ runtime, S.runningLoopInfo userId runtime = .ok (some info) := by
  induction runtimes generalizing running with
  | nil =>
    cases h
    cases hinfo
  | cons runtime runtimes ih =>
    rw [List.mapM_cons] at h
    cases hfirst : S.runningLoopInfo userId runtime with
    | error error =>
      rw [hfirst] at h
      cases h
    | ok first =>
      cases hrest : runtimes.mapM (S.runningLoopInfo userId) with
      | error error =>
        rw [hfirst, hrest] at h
        cases h
      | ok rest =>
        rw [hfirst, hrest] at h
        cases h
        rcases List.mem_cons.mp hinfo with heq | hinfo
        · exact ⟨runtime, by rw [hfirst, heq]⟩
        · exact ih hrest hinfo

/-- The store of a running conversation is the one of the user in the table. -/
theorem userId_of_mem_getLoopInfos {infos : List LoopInfo}
    (h : S.getLoopInfos none none = .ok infos) {info : LoopInfo} (hinfo : info ∈ infos)
    (hrunning : info.status = .running) {row : StoredConversationMetadata}
    (hrow : S.metadata.first info.conversationId = some row) : row.userId = info.userId := by
  unfold getLoopInfos at h
  rw [if_neg (by simp)] at h
  dsimp only at h
  generalize List.mapM splitKey _ = keys at h
  rcases keys with error | keys
  · cases h
  · dsimp only [Except.bind] at h
    cases hmap : List.mapM (S.runningLoopInfo none) ((S.candidates none).filter fun runtime =>
        runtime.sessionId ∉ keys.map Prod.snd ∧ inFilter none runtime.sessionId) with
    | error error =>
      rw [hmap] at h
      cases h
    | ok running =>
      rw [hmap] at h
      cases h
      rcases List.mem_append.mp hinfo with hinfo | hinfo
      · obtain ⟨key, -, rfl⟩ := List.mem_map.mp hinfo
        cases hrunning
      · obtain ⟨runtime, hok⟩ := exists_of_mem_mapM hmap (List.reduceOption_mem_iff.mp hinfo)
        unfold runningLoopInfo at hok
        cases hinner : S.runningInfo none runtime with
        | error error =>
          rw [hinner] at hok
          cases hok
        | ok inner =>
          rw [hinner] at hok
          cases inner with
          | none => cases hok
          | some inner =>
            cases hok
            unfold runningInfo getUserIdFromConversation at hinner
            cases hfirst : S.metadata.first runtime.sessionId with
            | none => simp [hfirst, Except.toOption] at hinner
            | some row' =>
              cases hid : runtime.runtimeId with
              | none => simp [hfirst, hid, Except.toOption] at hinner
              | some runtimeId =>
                simp only [hfirst, hid, Except.toOption, Option.filter_none, Except.ok.injEq,
                  Option.some.injEq] at hinner
                subst hinner
                change S.metadata.first runtime.sessionId = some row at hrow
                rw [hfirst] at hrow
                cases hrow
                rfl

end Services

/-! ## A pass -/

/-- No index lies between the first id without a file and the end of the store. -/
theorem searchIndices_nextEventId {files : FileStore D}
    (h : ∀ id ∈ files.events.keys, 0 ≤ id) :
    searchIndices (nextEventId files)
      (({ fileStore := files } : EventStore D).exclusiveEnd none) false = [] := by
  have hle : calculateCurId files ≤ nextEventId files := by
    unfold calculateCurId nextEventId
    split
    next hnil =>
      rw [hnil]
      rfl
    next hne =>
      obtain ⟨m, hm⟩ := Option.isSome_iff_exists.mp (List.isSome_max?_of_ne_nil hne)
      obtain ⟨hmem, hmax⟩ := List.max?_eq_some_iff.mp hm
      have hfold : ∀ (ids : List ℤ) (a : ℤ), a ≤ m → (∀ id ∈ ids, id ≤ m) →
          ids.foldl (fun maxId id => if id ≥ maxId then id else maxId) a ≤ m := by
        intro ids
        induction ids with
        | nil => exact fun a ha _ => ha
        | cons id ids ih =>
          intro a ha hids
          rw [List.foldl_cons]
          apply ih
          · split
            · exact hids id List.mem_cons_self
            · exact ha
          · exact fun id' hid' => hids id' (List.mem_cons_of_mem id hid')
      rw [hm]
      have hbound := hfold files.events.keys (-1) (by have := h m hmem; omega) hmax
      show _ + 1 ≤ m + 1
      omega
  show Int.range (nextEventId files) (calculateCurId files) = []
  rw [List.eq_nil_iff_forall_not_mem]
  intro index hindex
  rw [Int.mem_range_iff] at hindex
  omega

/-- A pass that reads the files it writes changes nothing. -/
theorem pollAgentLoopEvents_fst (codec : Codec E D) {S : Services} {info : LoopInfo}
    (faults : PassFaults) {p : Polling D} (hids : ∀ userId sid, ∀ id ∈ (p.files userId sid).events.keys, 0 ≤ id)
    (huser : ∀ row, S.metadata.first info.conversationId = some row → row.userId = info.userId) :
    (pollAgentLoopEvents codec S info faults p).1 = p := by
  unfold pollAgentLoopEvents
  split
  · rfl
  · cases hrow : S.metadata.first info.conversationId with
    | none => rfl
    | some row =>
      dsimp only
      split
      · rfl
      · rw [huser row hrow, searchIndices_nextEventId (hids info.userId info.conversationId)]
        rfl

theorem pollInfos_fst {S : Services} {faults : String → PassFaults} {infos : List LoopInfo}
    {p : Polling D} (hids : ∀ userId sid, ∀ id ∈ (p.files userId sid).events.keys, 0 ≤ id)
    (huser : ∀ info ∈ infos, info.status = .running → ∀ row,
      S.metadata.first info.conversationId = some row → row.userId = info.userId) :
    (pollInfos codec S faults infos p).1 = p := by
  induction infos with
  | nil => rfl
  | cons info infos ih =>
    rw [List.forall_mem_cons] at huser
    unfold pollInfos
    split
    · exact ih huser.2
    next hrunning =>
      rw [not_not] at hrunning
      have hfst := pollAgentLoopEvents_fst codec (faults info.conversationId) hids (huser.1 hrunning)
      split
      next q hq =>
        rw [hq] at hfst
        change q = p at hfst
        rw [hfst]
        exact ih huser.2
      next q hq =>
        rw [hq] at hfst
        change q = p at hfst
        rw [hfst]
        exact ih huser.2

/-- Polling copies no event. -/
theorem pollEvents_fst (S : Services) (faults : String → PassFaults) {p : Polling D}
    (hids : ∀ userId sid, ∀ id ∈ (p.files userId sid).events.keys, 0 ≤ id) :
    (pollEvents codec S faults p).1 = p := by
  unfold pollEvents
  cases hinfos : S.getLoopInfos none none with
  | error error => rfl
  | ok infos =>
    exact pollInfos_fst hids fun info hinfo hrunning row hrow =>
      Services.userId_of_mem_getLoopInfos hinfos hinfo hrunning hrow

/-! ## Runs -/

/-- The app server has no files and has processed nothing. -/
structure Polling.Untouched (p : Polling D) : Prop where
  files : ∀ userId sid, (p.files userId sid).events.keys = []
  processed : p.processed = []

theorem Polling.Untouched.perform {p : Polling D} (h : p.Untouched) (move : PollMove D) :
    (p.perform codec move).Untouched := by
  cases move with
  | append sid data => exact ⟨h.files, h.processed⟩
  | poll S faults =>
    have hsame : (pollEvents codec S faults p).1 = p := by
      apply pollEvents_fst
      intro userId sid id hid
      rw [h.files] at hid
      cases hid
    show (pollEvents codec S faults p).1.Untouched
    rw [hsame]
    exact h

/-- Nothing is copied, so that everything is there only if there is nothing. -/
theorem Polling.Untouched.mirrored_iff {p : Polling D} (h : p.Untouched) (info : LoopInfo) :
    p.Mirrored info ↔ (p.nested info.conversationId).events.keys = [] := by
  constructor
  · intro hmirrored
    rw [List.eq_nil_iff_forall_not_mem]
    intro id hid
    have hprocessed := hmirrored.processed id hid
    rw [h.processed] at hprocessed
    cases hprocessed
  · intro hempty
    constructor
    · intro id
      rw [h.files, hempty]
    · intro id hid
      rw [hempty] at hid
      cases hid

theorem nested_perform_poll {p : Polling D} (h : p.Untouched) (S : Services)
    (faults : String → PassFaults) : (p.perform codec (.poll S faults)).nested = p.nested := by
  show (pollEvents codec S faults p).1.nested = p.nested
  rw [pollEvents_fst]
  intro userId sid id hid
  rw [h.files] at hid
  cases hid

/-- **Polling keeps the files of the app server those of the nested runtimes just as long as
there are no events.** -/
theorem mirrored_iff_of_polled (codec : Codec E D) (moves : List (PollMove D)) :
    (∀ s ∈ steps (Polling.perform codec) ({} : Polling D) moves,
        ∀ info ∈ s.1.polled codec s.2, (s.1.perform codec s.2).Mirrored info)
      ↔ ∀ s ∈ steps (Polling.perform codec) ({} : Polling D) moves,
        ∀ info ∈ s.1.polled codec s.2, (s.1.nested info.conversationId).events.keys = [] := by
  have huntouched : ∀ s ∈ steps (Polling.perform codec) ({} : Polling D) moves,
      s.1.Untouched :=
    forall_steps_of_invariant (C := fun _ _ => True) (fun _ move h _ => h.perform move)
      ⟨fun _ _ => rfl, rfl⟩ fun _ _ => trivial
  have heach : ∀ s ∈ steps (Polling.perform codec) ({} : Polling D) moves,
      ∀ info ∈ s.1.polled codec s.2, ((s.1.perform codec s.2).Mirrored info
        ↔ (s.1.nested info.conversationId).events.keys = []) := by
    rintro ⟨p, move⟩ hs info hinfo
    have hp := huntouched _ hs
    cases move with
    | append sid data => cases hinfo
    | poll S faults =>
      rw [(hp.perform (.poll S faults)).mirrored_iff, nested_perform_poll hp]
  constructor
  · exact fun h s hs info hinfo => (heach s hs info hinfo).mp (h s hs info hinfo)
  · exact fun h s hs info hinfo => (heach s hs info hinfo).mpr (h s hs info hinfo)

/-- A conversation that runs, with its row. -/
def oneRunning : Services where
  metadata := { rows := [{ conversationId := "s", userId := "u" }], nodup := by simp }
  runtimes := [{ sessionId := "s", runtimeId := some "r", status := some "running" }]

/-- The nested runtime has one event, and the app server polls. -/
def oneEventPolled : List (PollMove Event) :=
  [.append "s" { id := 0, body := .action .null }, .poll oneRunning fun _ => {}]

theorem not_mirrored_oneEvent :
    ¬ ∀ s ∈ steps (Polling.perform eventCodec) ({} : Polling Event) oneEventPolled,
        ∀ info ∈ s.1.polled eventCodec s.2, (s.1.perform eventCodec s.2).Mirrored info := by
  intro h
  set info : LoopInfo :=
    { conversationId := "s", url := some "r/api/conversations/s", sessionApiKey := none
      userId := "u", status := .running } with hinfo
  have hmirrored := h _ (List.mem_cons_of_mem _ (List.mem_cons_self ..)) info
    (by rw [hinfo]; exact List.mem_cons_self ..)
  have hfile := (hmirrored.files 0).mpr (by decide)
  revert hfile
  decide

end OpenHands.Saas
