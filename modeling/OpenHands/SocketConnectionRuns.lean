/-
# Whether a client misses an event

An event is stored before it is put on the queue.  So whatever is stored when the replay
starts is replayed, and whatever is sent to the room later than the client has entered it is
received.  Between the two is a gap: an event that is stored after the replay has started and
sent to the room before the client has entered it is neither.
-/
import Mathlib.Algebra.Order.Ring.Int
import Mathlib.Data.List.Nodup
import Mathlib.Data.List.Perm.Basic
import OpenHands.SocketConnections

namespace OpenHands.Sockets

open Run

variable {latestEventId : ℤ} {w w' : World}

/-- Ids are unique, and what is stored and new to the client reaches it. -/
structure Inv (latestEventId : ℤ) (w : World) : Prop where
  nodup : ((w.files ++ w.writing).map Event.id).Nodup
  lt_curId : ∀ event ∈ w.files ++ w.writing, event.id < w.curId
  reaches : ∀ event ∈ w.files, event.visible = true → latestEventId < event.id →
    event ∈ w.sent ∨ w.OnTheWay event ∨ w.StillReplays event

theorem inv_start (S : Setup) : Inv latestEventId S.start where
  nodup := by
    show ((S.files ++ []).map Event.id).Nodup
    rw [List.append_nil]
    exact S.nodup
  lt_curId := fun event hevent => by
    change event ∈ S.files ++ [] at hevent
    rw [List.append_nil] at hevent
    exact S.lt_curId event hevent
  reaches := fun _ _ _ _ => Or.inr (Or.inr trivial)

/-- The ids of the stored events and of those that are being stored are kept. -/
theorem Inv.of_same (h : Inv latestEventId w) (hfiles : w'.files = w.files)
    (hwriting : w'.writing = w.writing) (hcurId : w'.curId = w.curId)
    (hreaches : ∀ event ∈ w.files, event.visible = true → latestEventId < event.id →
      event ∈ w'.sent ∨ w'.OnTheWay event ∨ w'.StillReplays event) : Inv latestEventId w' where
  nodup := by
    rw [hfiles, hwriting]
    exact h.nodup
  lt_curId := by
    rw [hfiles, hwriting, hcurId]
    exact h.lt_curId
  reaches := by
    rw [hfiles]
    exact hreaches

/-! ## Events are added -/

theorem Inv.add (h : Inv latestEventId w) (kind : EventKind) (source : Option EventSource) :
    Inv latestEventId (w.perform latestEventId (.add kind source)) where
  nodup := by
    show ((w.files ++ (w.writing ++ [_])).map Event.id).Nodup
    rw [← List.append_assoc, List.map_append]
    refine List.nodup_append.mpr ⟨h.nodup, List.nodup_singleton _, fun a ha b hb => ?_⟩
    obtain ⟨event, hevent, rfl⟩ := List.mem_map.mp ha
    rw [List.mem_singleton.mp hb]
    exact ne_of_lt (h.lt_curId event hevent)
  lt_curId := fun event hevent => by
    change event ∈ w.files ++ (w.writing ++ [_]) at hevent
    rw [← List.append_assoc] at hevent
    rcases List.mem_append.mp hevent with hold | hnew
    · exact lt_trans (h.lt_curId event hold) (lt_add_one w.curId)
    · rw [List.mem_singleton.mp hnew]
      exact lt_add_one w.curId
  reaches := h.reaches

theorem Inv.writeFile (h : Inv latestEventId w) (n : ℕ) :
    Inv latestEventId (w.perform latestEventId (.writeFile n)) := by
  dsimp only [World.perform]
  split
  next => exact h
  next event hevent =>
    have hperm : (w.files ++ [event] ++ w.writing.eraseIdx n).Perm (w.files ++ w.writing) := by
      rw [List.append_assoc]
      refine List.Perm.append_left _ ?_
      obtain ⟨hlt, rfl⟩ := List.getElem?_eq_some_iff.mp hevent
      exact List.getElem_cons_eraseIdx_perm hlt
    constructor
    · exact (hperm.map Event.id).nodup_iff.mpr h.nodup
    · intro other hother
      exact h.lt_curId other (hperm.mem_iff.mp hother)
    · intro other hother hvisible hnew
      rcases List.mem_append.mp hother with hold | hsame
      · rcases h.reaches other hold hvisible hnew with hsent | (hput | hqueue) | hreplay
        · exact Or.inl hsent
        · exact Or.inr (Or.inl (Or.inl (List.mem_append_left _ hput)))
        · exact Or.inr (Or.inl (Or.inr hqueue))
        · exact Or.inr (Or.inr hreplay)
      · exact Or.inr (Or.inl (Or.inl (List.mem_append_right _ hsame)))

theorem Inv.put (h : Inv latestEventId w) (n : ℕ) :
    Inv latestEventId (w.perform latestEventId (.put n)) := by
  dsimp only [World.perform]
  split
  next => exact h
  next event hevent =>
    refine h.of_same rfl rfl rfl fun other hother hvisible hnew => ?_
    have hput : other ∈ w.putting → other ∈ w.putting.eraseIdx n ∨ other = event := by
      intro hmem
      obtain ⟨hlt, rfl⟩ := List.getElem?_eq_some_iff.mp hevent
      have hperm := (List.getElem_cons_eraseIdx_perm hlt).mem_iff.mpr hmem
      exact (List.mem_cons.mp hperm).symm
    rcases h.reaches other hother hvisible hnew with hsent | (hmem | hqueue | hpublish) | hreplay
    · exact Or.inl hsent
    · rcases hput hmem with hstays | rfl
      · exact Or.inr (Or.inl (Or.inl hstays))
      · exact Or.inr (Or.inl (Or.inr (Or.inl (List.mem_append_right _
          (List.mem_singleton_self _)))))
    · exact Or.inr (Or.inl (Or.inr (Or.inl (List.mem_append_left _ hqueue))))
    · exact Or.inr (Or.inl (Or.inr (Or.inr hpublish)))
    · exact Or.inr (Or.inr hreplay)

/-! ## Events are dispatched -/

theorem Inv.handle (h : Inv latestEventId w) :
    Inv latestEventId (w.perform latestEventId .handle) := by
  dsimp only [World.perform]
  split
  next => exact h
  next event queue hqueue =>
    refine h.of_same rfl rfl rfl fun other hother hvisible hnew => ?_
    have hkept : other ∈ w.publishQueue → other ∈
        (if event.dispatched then w.publishQueue ++ [event] else w.publishQueue) := by
      intro hmem
      split
      · exact List.mem_append_left _ hmem
      · exact hmem
    rcases h.reaches other hother hvisible hnew with hsent | (hput | hmem | hpublish) | hreplay
    · exact Or.inl hsent
    · exact Or.inr (Or.inl (Or.inl hput))
    · rw [hqueue] at hmem
      rcases List.mem_cons.mp hmem with rfl | hmem
      · -- a visible event is one that the callback passes on
        unfold Event.visible at hvisible
        have hdispatched := (of_decide_eq_true hvisible).1
        refine Or.inr (Or.inl (Or.inr (Or.inr ?_)))
        show other ∈ if other.dispatched = true then _ else _
        rw [if_pos hdispatched]
        exact List.mem_append_right _ (List.mem_singleton_self _)
      · exact Or.inr (Or.inl (Or.inr (Or.inl hmem)))
    · exact Or.inr (Or.inl (Or.inr (Or.inr (hkept hpublish))))
    · exact Or.inr (Or.inr hreplay)

/-- An event that is sent while the client is not in the room must be one it gets otherwise. -/
theorem Inv.send (h : Inv latestEventId w) (ready : Bool)
    (htime : w.InTime latestEventId (.send ready)) : Inv latestEventId (w.send ready) := by
  unfold World.send
  split
  next => exact h
  next event publishQueue hqueue =>
    split
    next => exact h
    next hpast =>
      refine h.of_same rfl rfl rfl fun other hother hvisible hnew => ?_
      have hkept : other ∈ w.sent →
          other ∈ (if w.connection = .joined then w.sent ++ [event] else w.sent) := by
        intro hmem
        split
        · exact List.mem_append_left _ hmem
        · exact hmem
      rcases h.reaches other hother hvisible hnew with hsent | (hput | hmem | hpublish) | hreplay
      · exact Or.inl (hkept hsent)
      · exact Or.inr (Or.inl (Or.inl hput))
      · exact Or.inr (Or.inl (Or.inr (Or.inl hmem)))
      · rw [hqueue] at hpublish
        rcases List.mem_cons.mp hpublish with rfl | hmem
        · by_cases hjoined : w.connection = .joined
          · left
            show other ∈ if w.connection = .joined then w.sent ++ [other] else w.sent
            rw [if_pos hjoined]
            exact List.mem_append_right _ (List.mem_singleton_self _)
          · -- the send does not wait for the client, which is not in the room
            have hready : w.waitWebsocketInitialComplete = true → ready = true := by
              intro hwait
              by_contra hnot
              exact hpast ⟨hwait, hjoined, hnot⟩
            rcases htime other publishQueue hqueue hready with hroom | hhidden | hold | hsent |
              hreplay
            · exact absurd hroom hjoined
            · rw [hhidden] at hvisible
              cases hvisible
            · exact absurd hnew (not_lt_of_ge hold)
            · exact Or.inl (hkept hsent)
            · exact Or.inr (Or.inr hreplay)
        · exact Or.inr (Or.inl (Or.inr (Or.inr hmem)))
      · exact Or.inr (Or.inr hreplay)

/-! ## The client connects -/

/-- The end of the replay is behind every stored event. -/
theorem lt_calculateCurId {files : List Event} {event : Event} (h : event ∈ files) :
    event.id < calculateCurId files := by
  have hle : ∀ (files : List Event) (maxId : ℤ),
      maxId ≤ files.foldl (fun maxId event => max maxId event.id) maxId ∧
        ∀ event ∈ files, event.id ≤ files.foldl (fun maxId event => max maxId event.id) maxId := by
    intro files
    induction files with
    | nil => exact fun maxId => ⟨le_refl maxId, fun _ h => by cases h⟩
    | cons first files ih =>
      intro maxId
      obtain ⟨hacc, hall⟩ := ih (max maxId first.id)
      refine ⟨le_trans (le_max_left _ _) hacc, fun event hevent => ?_⟩
      rcases List.mem_cons.mp hevent with rfl | hmem
      · exact le_trans (le_max_right _ _) hacc
      · exact hall event hmem
  exact Int.lt_add_one_of_le ((hle files (-1)).2 event h)

theorem Inv.snapshot (h : Inv latestEventId w) :
    Inv latestEventId (w.perform latestEventId .snapshot) := by
  dsimp only [World.perform]
  split
  next =>
    refine h.of_same rfl rfl rfl fun event hevent hvisible hnew => ?_
    exact Or.inr (Or.inr ⟨Int.add_one_le_of_lt hnew, lt_calculateCurId hevent⟩)
  next => exact h

/-- The stored event of an index is read. -/
theorem Inv.read_eq (h : Inv latestEventId w) {event : Event} (hevent : event ∈ w.files)
    (onPage : Bool) : w.read event.id onPage = some event := by
  unfold World.read
  have hnodup : (w.files.map Event.id).Nodup := by
    have hall := h.nodup
    rw [List.map_append] at hall
    exact (List.nodup_append.mp hall).1
  have hsome : (w.files.find? (·.id = event.id)).isSome := by
    rw [List.find?_isSome]
    exact ⟨event, hevent, by simp⟩
  obtain ⟨found, hfound⟩ := Option.isSome_iff_exists.mp hsome
  have hid : found.id = event.id := by simpa using List.find?_some hfound
  rw [hfound, List.inj_on_of_nodup_map hnodup (List.mem_of_find?_eq_some hfound) hevent hid]
  rfl

/-- When the replay goes to the next index, every event that it had still to come to is behind
it or has been sent. -/
theorem Inv.replayNext (h : Inv latestEventId w) {index stop : ℤ} {held held' : Option Event}
    {sent : List Event} (hconnection : w.connection = .replaying index stop held)
    (hsent : ∀ event ∈ w.sent, event ∈ sent)
    (hread : ∀ event ∈ w.files, event.visible = true → event.id = index → event ∈ sent) :
    Inv latestEventId
      { w with connection := .replaying (index + 1) stop held', sent := sent } := by
  refine h.of_same rfl rfl rfl fun event hevent hvisible hnew => ?_
  rcases h.reaches event hevent hvisible hnew with hmem | hway | hreplay
  · exact Or.inl (hsent event hmem)
  · exact Or.inr (Or.inl hway)
  · unfold World.StillReplays at hreplay
    rw [hconnection] at hreplay
    rcases lt_or_eq_of_le hreplay.1 with hlt | heq
    · exact Or.inr (Or.inr ⟨Int.add_one_le_of_lt hlt, hreplay.2⟩)
    · exact Or.inl (hread event hevent hvisible heq.symm)

theorem Inv.replay (h : Inv latestEventId w) (onPage : Bool) :
    Inv latestEventId (w.replay onPage) := by
  unfold World.replay
  split
  next index stop held hconnection =>
    split
    next hlt =>
      split
      next hread =>
        refine h.replayNext hconnection (fun _ hmem => hmem) fun event hevent _ hid => ?_
        rw [← hid, h.read_eq hevent] at hread
        cases hread
      next found hread =>
        -- a visible event of this index is the one that was read
        have hsame : ∀ event ∈ w.files, event.id = index → event = found := by
          intro event hevent hid
          rw [← hid, h.read_eq hevent] at hread
          exact Option.some.inj hread
        split
        next hskipped =>
          refine h.replayNext hconnection (fun _ hmem => hmem) fun event hevent hvisible hid => ?_
          rw [hsame event hevent hid] at hvisible
          exact absurd hskipped (of_decide_eq_true hvisible).2.1
        next =>
          split
          next hkind =>
            refine h.replayNext hconnection (fun _ hmem => hmem) fun event hevent hvisible hid => ?_
            rw [hsame event hevent hid] at hvisible
            exact absurd hkind (of_decide_eq_true hvisible).2.2
          next =>
            refine h.replayNext hconnection (fun _ hmem => List.mem_append_left _ hmem)
              fun event hevent _ hid => ?_
            rw [hsame event hevent hid]
            exact List.mem_append_right _ (List.mem_singleton_self _)
    next hend =>
      -- every index has been read, and what is held back is sent
      refine h.of_same rfl rfl rfl fun event hevent hvisible hnew => ?_
      rcases h.reaches event hevent hvisible hnew with hmem | hway | hreplay
      · exact Or.inl (List.mem_append_left _ hmem)
      · exact Or.inr (Or.inl hway)
      · unfold World.StillReplays at hreplay
        rw [hconnection] at hreplay
        exact absurd (lt_of_le_of_lt hreplay.1 hreplay.2) hend
  next => exact h

theorem Inv.enterRoom (h : Inv latestEventId w) :
    Inv latestEventId (w.perform latestEventId .enterRoom) := by
  dsimp only [World.perform]
  split
  next hconnection =>
    refine h.of_same rfl rfl rfl fun event hevent hvisible hnew => ?_
    rcases h.reaches event hevent hvisible hnew with hmem | hway | hreplay
    · exact Or.inl hmem
    · exact Or.inr (Or.inl hway)
    · unfold World.StillReplays at hreplay
      rw [hconnection] at hreplay
      exact hreplay.elim
  next => exact h

/-! ## Runs -/

theorem Inv.perform (h : Inv latestEventId w) (move : Move)
    (htime : w.InTime latestEventId move) : Inv latestEventId (w.perform latestEventId move) := by
  cases move with
  | add kind source => exact h.add kind source
  | writeFile n => exact h.writeFile n
  | put n => exact h.put n
  | handle => exact h.handle
  | send ready => exact h.send ready htime
  | snapshot => exact h.snapshot
  | replay onPage => exact h.replay onPage
  | enterRoom => exact h.enterRoom

theorem Inv.delivered (h : Inv latestEventId w) : w.Delivered latestEventId := by
  intro hjoined event hevent hvisible hnew
  rcases h.reaches event hevent hvisible hnew with hmem | hway | hreplay
  · exact Or.inl hmem
  · exact Or.inr hway
  · unfold World.StillReplays at hreplay
    rw [hjoined] at hreplay
    exact hreplay.elim

/-- **A client that has joined has been sent every visible event that is new to it**, or the
event is on its way to the room, in every run in which no such event is sent to the room in the
gap between the start of the replay and the client's entering the room. -/
theorem delivered_run (S : Setup) (moves : List Move)
    (htime : ∀ p ∈ steps (World.perform · S.latestEventId) S.start moves,
      p.1.InTime S.latestEventId p.2) :
    (run (World.perform · S.latestEventId) S.start moves).Delivered S.latestEventId :=
  Inv.delivered (run_invariant (I := Inv S.latestEventId)
    (C := fun w move => w.InTime S.latestEventId move)
    (fun _ move h htime => h.perform move htime) (inv_start S) htime)

/-- A conversation with one stored event, which the client has seen, and with other clients. -/
def oneEvent : Setup where
  latestEventId := 0
  files := [⟨0, .other, some .user⟩]
  curId := 1
  waitWebsocketInitialComplete := false
  nodup := by decide
  lt_curId := by decide

/-- An event that is sent when the client has joined. -/
theorem delivered_run_joined : (run (World.perform · 0) oneEvent.start
    [.snapshot, .add .other (some .agent), .writeFile 0, .put 0, .handle, .replay false,
      .enterRoom, .send true]).Delivered 0 := by
  refine delivered_run oneEvent _ fun p hp => ?_
  simp only [steps_cons, steps_nil, List.mem_cons, List.not_mem_nil, or_false] at hp
  rcases hp with rfl | rfl | rfl | rfl | rfl | rfl | rfl | rfl
  all_goals first
    | trivial
    | exact fun _ _ _ _ => Or.inl rfl

/-- An event that is added while the replay runs and sent before the client joins. -/
theorem not_delivered_in_gap : ¬ ∀ (S : Setup) (moves : List Move),
    (run (World.perform · S.latestEventId) S.start moves).Delivered S.latestEventId := by
  intro h
  have hlost := h oneEvent [.snapshot, .add .other (some .agent), .writeFile 0, .put 0, .handle,
    .send true, .replay false, .enterRoom] (by decide) ⟨1, .other, some .agent⟩ (by decide)
    (by decide) (by decide)
  rcases hlost with hsent | hput | hqueue | hpublish
  · exact absurd hsent (by decide)
  · exact absurd hput (by decide)
  · exact absurd hqueue (by decide)
  · exact absurd hpublish (by decide)

end OpenHands.Sockets
