/-
# Responses that repeat a tool call

The check of the pending messages of `process_events` raises when a message has no tool
calls, and when it takes the result of a call twice.  The ledger of the ids says when this
happens: `exists_completePending_iff`.
-/
import OpenHands.CompletedCalls

namespace OpenHands

/-! ## Marks -/

/-- What an event means for the account of the tool calls. -/
inductive ToolMark where
  | other
  | requests (responseId : String) (ids : List String)
  | answers (toolCallId : String)
  deriving DecidableEq, Repr

/-- The mark of a processed event. -/
def Processed.toolMark : Processed → ToolMark
  | .shown _ => .other
  | .requests responseId message => .requests responseId message.callIds
  | .answers toolCallId _ => .answers toolCallId

namespace Ledger

/-- A mark is put into the ledger. -/
def mark (l : Ledger) : ToolMark → Ledger
  | .other => l
  | .requests responseId ids => { l with requested := l.requested.set responseId ids }
  | .answers toolCallId => { l with answered := l.answered.set toolCallId () }

theorem record_eq_mark (l : Ledger) (processed : Processed) :
    l.record processed = l.mark processed.toolMark := by
  cases processed <;> rfl

/-- No response that is completed repeats a call. -/
def NoRepeats : List (String × List String) → Ledger → Prop
  | [], _ => True
  | (responseId, ids) :: entries, l =>
    if ids.all l.answered.contains then
      ids.Nodup ∧
        NoRepeats entries ⟨l.requested.pop responseId, ids.foldl PyDict.pop l.answered⟩
    else NoRepeats entries l

/-- No response that the marks complete repeats a call. -/
def CompletesOnce (l : Ledger) : List ToolMark → Prop
  | [] => True
  | toolMark :: marks =>
    NoRepeats (l.mark toolMark).requested.entries (l.mark toolMark) ∧
      CompletesOnce (complete (l.mark toolMark).requested.entries (l.mark toolMark)).2 marks

instance decidableNoRepeats : (entries : List (String × List String)) → (l : Ledger) →
    Decidable (NoRepeats entries l)
  | [], _ => isTrue trivial
  | (responseId, ids) :: entries, l =>
    have := decidableNoRepeats entries l
    have := decidableNoRepeats entries
      ⟨l.requested.pop responseId, ids.foldl PyDict.pop l.answered⟩
    inferInstanceAs (Decidable (if ids.all l.answered.contains then
      ids.Nodup ∧ NoRepeats entries ⟨l.requested.pop responseId,
        ids.foldl PyDict.pop l.answered⟩ else NoRepeats entries l))

instance decidableCompletesOnce : (marks : List ToolMark) → (l : Ledger) →
    Decidable (l.CompletesOnce marks)
  | [], _ => isTrue trivial
  | toolMark :: marks, l =>
    have := decidableCompletesOnce marks
      (complete (l.mark toolMark).requested.entries (l.mark toolMark)).2
    inferInstanceAs (Decidable (_ ∧ _))

/-- A response that asks twice under one id is completed by one answer. -/
example : ¬ CompletesOnce {} [.requests "r1" ["c1", "c1"], .answers "c1"] := by decide

end Ledger

/-! ## The check of the pending messages -/

section Pending

variable {calls : List ToolCall} {results left : PyDict String Message} {s s' : MemoryState}
  {messages : List Message} {entries : List (String × Message)}

/-- What is taken was there. -/
theorem contains_of_takeResults : ∀ {results left : PyDict String Message}
    {messages : List Message}, takeResults calls results = .ok (messages, left) →
    ∀ call ∈ calls, call.id ∈ results.keys := by
  induction calls with
  | nil => exact fun _ _ hcall => (nomatch hcall)
  | cons first calls ih =>
      intro results left messages h call hcall
      obtain ⟨message, rest, hget, htake, -⟩ := takeResults_cons h
      rcases List.mem_cons.mp hcall with rfl | hcall
      · rw [← PyDict.isSome_get?_iff, hget]
        rfl
      · have hkey := ih htake call hcall
        rw [← PyDict.isSome_get?_iff, PyDict.get?_pop] at hkey
        rw [← PyDict.isSome_get?_iff]
        split_ifs at hkey
        · exact absurd hkey (by decide)
        · exact hkey

/-- A result is taken once: after that its key is gone. -/
theorem nodup_of_takeResults : ∀ {results left : PyDict String Message}
    {messages : List Message}, takeResults calls results = .ok (messages, left) →
    (calls.map ToolCall.id).Nodup := by
  induction calls with
  | nil => exact fun _ => List.nodup_nil
  | cons first calls ih =>
      intro results left messages h
      obtain ⟨message, rest, hget, htake, -⟩ := takeResults_cons h
      rw [List.map_cons, List.nodup_cons]
      refine ⟨fun hmem => ?_, ih htake⟩
      obtain ⟨call, hcall, hid⟩ := List.mem_map.mp hmem
      have hkey := contains_of_takeResults htake call hcall
      rw [← PyDict.isSome_get?_iff, PyDict.get?_pop, if_pos hid] at hkey
      exact absurd hkey (by decide)

/-- The pending messages that are left were there before. -/
theorem pending_of_completePending : ∀ {s s' : MemoryState} {messages : List Message},
    completePending entries s = .ok (messages, s') →
    ∀ entry ∈ s'.pendingToolCallActionMessages.entries,
      entry ∈ s.pendingToolCallActionMessages.entries := by
  induction entries with
  | nil =>
      intro s s' messages h entry hentry
      cases h
      exact hentry
  | cons first entries ih =>
      intro s s' messages h entry hentry
      obtain ⟨calls, -, ⟨-, h⟩ | ⟨-, results, left, rest, -, hcomplete, -⟩⟩ :=
        completePending_cons h
      · exact ih h entry hentry
      · exact PyDict.mem_entries_pop (ih hcomplete entry hentry)

/-- **The check returns** exactly when every pending message has tool calls and no response
that is completed repeats one. -/
theorem exists_completePending_iff : ∀ {s : MemoryState}, s.Valid →
    (∀ entry ∈ entries, entry.2.role = .assistant) →
    ((∃ completed, completePending entries s = .ok completed) ↔
      (∀ entry ∈ entries, entry.2.toolCalls.isSome = true) ∧
        Ledger.NoRepeats (entries.map fun entry => (entry.1, entry.2.callIds)) s.ledger) := by
  induction entries with
  | nil => exact fun _ _ => ⟨fun _ => ⟨fun _ h => (nomatch h), trivial⟩, fun _ => ⟨_, rfl⟩⟩
  | cons entry entries ih =>
      intro s hs hroles
      obtain ⟨responseId, message⟩ := entry
      have hrest : ∀ entry ∈ entries, entry.2.role = .assistant :=
        fun entry hentry => hroles entry (List.mem_cons_of_mem _ hentry)
      rw [List.map_cons, List.forall_mem_cons]
      unfold completePending Ledger.NoRepeats
      cases hcalls : message.toolCalls with
      | none => simp
      | some calls =>
          rw [callIds_of_toolCalls (hroles _ List.mem_cons_self) hcalls, all_answered]
          simp only [Option.isSome_some, true_and]
          cases hall : calls.all fun call => s.toolCallIdToMessage.contains call.id with
          | false =>
              simp only [Bool.false_eq_true, if_false]
              exact ih hs hrest
          | true =>
              -- the results are taken out one by one, so a repeated id is missing
              simp only [if_true]
              constructor
              · rintro ⟨completed, h⟩
                cases htake : takeResults calls s.toolCallIdToMessage with
                | error e =>
                    simp only [htake] at h
                    cases h
                | ok taken =>
                    simp only [htake] at h
                    have hiff := ih (hs.taken htake responseId) hrest
                    rw [ledger_taken htake] at hiff
                    cases hcomplete : completePending entries
                        ⟨s.pendingToolCallActionMessages.pop responseId, taken.2⟩ with
                    | error e =>
                        simp only [hcomplete] at h
                        cases h
                    | ok completed =>
                        obtain ⟨hentries, hrepeats⟩ := hiff.mp ⟨completed, hcomplete⟩
                        exact ⟨hentries, nodup_of_takeResults htake, hrepeats⟩
              · rintro ⟨hentries, hnodup, hrepeats⟩
                obtain ⟨taken, htake⟩ := exists_takeResults hnodup hall
                have hiff := ih (hs.taken htake responseId) hrest
                rw [ledger_taken htake] at hiff
                obtain ⟨completed, hcomplete⟩ := hiff.mpr ⟨hentries, hrepeats⟩
                simp only [htake, hcomplete]
                exact ⟨_, rfl⟩

end Pending

end OpenHands
