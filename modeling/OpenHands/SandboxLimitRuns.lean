/-
# Whether the limit on sandboxes holds

The listing is read to its end, and of the running sandboxes as many are paused as are too
many, the oldest first.  What is kept of them is `min running (max - 1)`; those that are starting
are not counted, and with a limit of one nothing may be kept, which the helper refuses.
-/
import OpenHands.SandboxLimit

namespace OpenHands.SandboxLimit

open Run OldestFirst

variable {service : Service} {w w' : World} {maxNumSandboxes m : ℕ}

/-! ## Lists -/

section Lists

variable {α : Type*}

/-- What is left of a list without its first members. -/
theorem filter_notMem_take [DecidableEq α] {xs : List α} (hnodup : xs.Nodup) (k : ℕ) :
    xs.filter (fun x => x ∉ xs.take k) = xs.drop k := by
  have hsplit : (xs.take k ++ xs.drop k).Nodup := by
    rw [List.take_append_drop]
    exact hnodup
  have hdisjoint := (List.nodup_append.mp hsplit).2.2
  have hfirst : (xs.take k).filter (fun x => x ∉ xs.take k) = [] :=
    List.filter_eq_nil_iff.mpr fun x hx => by simp [hx]
  have hlast : (xs.drop k).filter (fun x => x ∉ xs.take k) = xs.drop k :=
    List.filter_eq_self.mpr fun x hx => decide_eq_true fun hmem => hdisjoint x hmem x hx rfl
  calc xs.filter (fun x => x ∉ xs.take k)
      = (xs.take k ++ xs.drop k).filter (fun x => x ∉ xs.take k) := by
        rw [List.take_append_drop]
    _ = xs.drop k := by rw [List.filter_append, hfirst, hlast, List.nil_append]

theorem countP_le_add {p q r : α → Bool} (h : ∀ x, p x = true → q x = true ∨ r x = true)
    (xs : List α) : xs.countP p ≤ xs.countP q + xs.countP r := by
  induction xs with
  | nil => exact Nat.zero_le _
  | cons x xs ih =>
    rw [List.countP_cons, List.countP_cons, List.countP_cons]
    by_cases hp : p x = true
    · rcases h x hp with hq | hr
      · rw [if_pos hp, if_pos hq]
        omega
      · rw [if_pos hp, if_pos hr]
        omega
    · rw [if_neg hp]
      omega

theorem countP_add_countP {p q r : α → Bool} (h : ∀ x, r x = (p x || q x))
    (hdisjoint : ∀ x, p x = true → q x = false) (xs : List α) :
    xs.countP p + xs.countP q = xs.countP r := by
  induction xs with
  | nil => rfl
  | cons x xs ih =>
    rw [List.countP_cons, List.countP_cons, List.countP_cons, h x, ← ih]
    cases hp : p x with
    | true =>
      rw [hdisjoint x hp]
      exact Nat.add_right_comm _ _ _
    | false =>
      rw [Bool.false_or, if_neg Bool.false_ne_true, Nat.add_zero, Nat.add_assoc]

end Lists

/-! ## The listing -/

namespace World

theorem ext_sandboxes (h : w.sandboxes = w'.sandboxes) : w = w' := by
  cases w
  cases w'
  cases h
  rfl

theorem mapStatus_congr {f g : Sandbox → Sandboxes.SandboxStatus}
    (h : ∀ sandbox ∈ w.sandboxes, f sandbox = g sandbox) : w.mapStatus f = w.mapStatus g :=
  ext_sandboxes (List.map_congr_left fun sandbox hsandbox => by rw [h sandbox hsandbox])

/-- An id is that of one sandbox. -/
theorem eq_of_id (w : World) {a b : Sandbox} (ha : a ∈ w.sandboxes) (hb : b ∈ w.sandboxes)
    (h : a.id = b.id) : a = b :=
  List.inj_on_of_nodup_map w.nodup ha hb h

theorem nodup_sandboxes (w : World) : w.sandboxes.Nodup := w.nodup.of_map

end World

/-- Both services list the sandboxes that they see from the newest to the oldest. -/
theorem serves_searchSandboxes (service : Service) (w : World) (limit : ℕ) :
    OffsetPages.Serves (service.searchSandboxes w · limit)
      (sortNewest Sandbox.createdAt (w.sandboxes.filter service.sees)) limit := by
  intro pageId
  cases service with
  | docker containerNamePrefix => rfl
  | remote userId =>
    -- a row behind the page is read to see if there is another one
    unfold Service.searchSandboxes OffsetPages.pageAt
    have hlength : limit < (((sortNewest Sandbox.createdAt (w.sandboxes.filter
        (Service.remote userId).sees)).drop (OffsetPages.offset pageId)).take
          (limit + 1)).length ↔ OffsetPages.offset pageId + limit < (sortNewest Sandbox.createdAt
            (w.sandboxes.filter (Service.remote userId).sees)).length := by
      rw [List.length_take, List.length_drop]
      omega
    by_cases hmore : OffsetPages.offset pageId + limit < (sortNewest Sandbox.createdAt
        (w.sandboxes.filter (Service.remote userId).sees)).length
    · rw [if_pos hmore]
      simp only [if_pos (hlength.mpr hmore)]
      rw [List.take_take, Nat.min_eq_left (Nat.le_succ limit)]
    · rw [if_neg hmore]
      simp only [if_neg (mt hlength.mp hmore)]
      rw [List.take_of_length_le (by rw [List.length_drop]; omega),
        List.take_of_length_le (by rw [List.length_drop]; omega)]

/-- The helper reads all sandboxes that the service sees. -/
theorem follow_searchSandboxes (service : Service) (w : World) :
    OffsetPages.follow (service.searchSandboxes w · 100) (w.sandboxes.length + 1) none
      = some (sortNewest Sandbox.createdAt (w.sandboxes.filter service.sees)) := by
  refine OffsetPages.follow_none (serves_searchSandboxes service w 100) (by decide) ?_
  rw [(sortNewest_perm _ _).length_eq]
  exact Nat.lt_succ_of_le (List.length_filter_le _ _)

/-! ## What is paused -/

/-- The running sandboxes that the service sees, from the oldest to the newest. -/
def runningOldest (service : Service) (w : World) : List Sandbox :=
  sortOldest Sandbox.createdAt
    ((sortNewest Sandbox.createdAt (w.sandboxes.filter service.sees)).filter (·.status = .running))

theorem mem_runningOldest_iff {sandbox : Sandbox} : sandbox ∈ runningOldest service w ↔
    sandbox ∈ w.sandboxes ∧ service.sees sandbox = true ∧ sandbox.status = .running := by
  unfold runningOldest
  rw [(sortOldest_perm _ _).mem_iff, List.mem_filter, (sortNewest_perm _ _).mem_iff,
    List.mem_filter, decide_eq_true_iff, and_assoc]

theorem runningOldest_perm (service : Service) (w : World) : (runningOldest service w).Perm
    (w.sandboxes.filter fun sandbox => service.sees sandbox ∧ sandbox.status = .running) := by
  refine (sortOldest_perm _ _).trans (((sortNewest_perm _ _).filter _).trans ?_)
  rw [List.filter_filter]
  refine List.Perm.of_eq (List.filter_congr fun sandbox _ => ?_)
  simp [and_comm]

theorem length_runningOldest (service : Service) (w : World) :
    (runningOldest service w).length = w.count service .running := by
  rw [(runningOldest_perm service w).length_eq, ← List.countP_eq_length_filter]
  rfl

theorem nodup_runningOldest (service : Service) (w : World) : (runningOldest service w).Nodup :=
  (runningOldest_perm service w).nodup_iff.mpr (w.nodup_sandboxes.filter _)

/-- The sandboxes that are too many. -/
def toPause (service : Service) (w : World) (m : ℕ) : List Sandbox :=
  (runningOldest service w).take (w.count service .running - m)

theorem sandboxesToPause_eq (service : Service) (w : World) (m : ℕ) :
    Service.sandboxesToPause (sortNewest Sandbox.createdAt (w.sandboxes.filter service.sees)) m
      = toPause service w m := by
  unfold Service.sandboxesToPause toPause
  have hlength : ((sortNewest Sandbox.createdAt (w.sandboxes.filter service.sees)).filter
      (·.status = .running)).length = w.count service .running := by
    rw [← (sortOldest_perm Sandbox.createdAt _).length_eq]
    exact length_runningOldest service w
  simp only [hlength]
  split
  next hle => rw [Nat.sub_eq_zero_of_le hle, List.take_zero]
  next => rfl

/-- The effect of the loop: a sandbox is paused if one of the requests has an effect on it. -/
theorem pauseAll_fst (ids : List String) : ∀ (w : World) (paused : List String),
    (ids.foldl (fun s id =>
      let result := service.pauseSandbox s.1 id
      (result.1, if result.2 then s.2 ++ [id] else s.2)) (w, paused)).1
        = w.mapStatus fun sandbox =>
            if ids.any (service.pauses · sandbox) then .paused else sandbox.status := by
  induction ids with
  | nil =>
    intro w paused
    refine World.ext_sandboxes ?_
    exact (List.map_id _).symm
  | cons id ids ih =>
    intro w paused
    rw [List.foldl_cons, ih]
    refine World.ext_sandboxes ?_
    show (w.sandboxes.map _).map _ = w.sandboxes.map _
    rw [List.map_map]
    refine List.map_congr_left fun sandbox _ => ?_
    by_cases hid : service.pauses id sandbox = true
    · -- it is paused by this request, and the later ones leave it
      simp [hid]
    · simp [hid]

/-- A request for a running sandbox that the service sees pauses it. -/
theorem pauses_iff_of_running {a b : Sandbox} (hb : b ∈ runningOldest service w)
    (ha : a ∈ w.sandboxes) : service.pauses b.id a = true ↔ a = b := by
  obtain ⟨hmem, hsees, hrunning⟩ := mem_runningOldest_iff.mp hb
  constructor
  · intro h
    unfold Service.pauses at h
    rw [Bool.and_eq_true, decide_eq_true_iff] at h
    exact w.eq_of_id ha hmem h.1.1
  · rintro rfl
    unfold Service.pauses
    cases service with
    | remote userId => simp [hsees, hrunning]
    | docker containerNamePrefix => simp [hsees, hrunning]

variable (service w) in
/-- **What the helper does**: unless the number is zero, it pauses the running sandboxes that
are too many. -/
theorem pauseOldSandboxes_eq (hm : 0 < m) : ∃ ids, service.pauseOldSandboxes w m
    = some (w.mapStatus fun sandbox =>
        if sandbox ∈ toPause service w m then .paused else sandbox.status, ids) := by
  unfold Service.pauseOldSandboxes
  rw [if_neg (Nat.not_le_of_lt hm), follow_searchSandboxes, Option.map_some, sandboxesToPause_eq]
  refine ⟨(service.pauseAll w ((toPause service w m).map Sandbox.id)).2, ?_⟩
  congr 1
  refine Prod.ext ?_ rfl
  show (service.pauseAll w _).1 = _
  unfold Service.pauseAll
  rw [pauseAll_fst]
  refine World.mapStatus_congr fun sandbox hsandbox => ?_
  have hany : ((toPause service w m).map Sandbox.id).any (service.pauses · sandbox) = true ↔
      sandbox ∈ toPause service w m := by
    rw [List.any_map, List.any_eq_true]
    constructor
    · rintro ⟨a, ha, hpauses⟩
      rw [(pauses_iff_of_running (List.mem_of_mem_take ha) hsandbox).mp hpauses]
      exact ha
    · intro hmem
      exact ⟨sandbox, hmem,
        (pauses_iff_of_running (List.mem_of_mem_take hmem) hsandbox).mpr rfl⟩
  by_cases hmem : sandbox ∈ toPause service w m
  · rw [if_pos (hany.mpr hmem), if_pos hmem]
  · rw [if_neg (mt hany.mp hmem), if_neg hmem]

/-! ## What is left -/

/-- The service sees a sandbox whatever its status is. -/
theorem sees_status (service : Service) (sandbox : Sandbox) (status : Sandboxes.SandboxStatus) :
    service.sees { sandbox with status := status } = service.sees sandbox := by
  cases service <;> rfl

theorem count_mapStatus (service : Service) (w : World)
    (f : Sandbox → Sandboxes.SandboxStatus) (status : Sandboxes.SandboxStatus) :
    (w.mapStatus f).count service status
      = w.sandboxes.countP fun sandbox => service.sees sandbox ∧ f sandbox = status := by
  unfold World.count World.mapStatus
  rw [List.countP_map]
  refine List.countP_congr fun sandbox _ => ?_
  simp only [Function.comp, sees_status]

/-- Those that are starting are left alone. -/
theorem count_starting_paused (service : Service) (w : World) (m : ℕ) :
    (w.mapStatus fun sandbox =>
      if sandbox ∈ toPause service w m then .paused else sandbox.status).count service .starting
        = w.count service .starting := by
  rw [count_mapStatus]
  refine List.countP_congr fun sandbox _ => ?_
  by_cases hmem : sandbox ∈ toPause service w m
  · have hrunning := (mem_runningOldest_iff.mp (List.mem_of_mem_take hmem)).2.2
    simp [hmem, hrunning]
  · simp [hmem]

/-- Of those that are running as many as the number are left. -/
theorem count_running_paused (service : Service) (w : World) (m : ℕ) :
    (w.mapStatus fun sandbox =>
      if sandbox ∈ toPause service w m then .paused else sandbox.status).count service .running
        = min (w.count service .running) m := by
  have hleft : (w.sandboxes.countP fun sandbox => service.sees sandbox ∧
      (if sandbox ∈ toPause service w m then Sandboxes.SandboxStatus.paused else sandbox.status)
        = .running)
      = ((runningOldest service w).filter fun sandbox => sandbox ∉ toPause service w m).length := by
    rw [((runningOldest_perm service w).filter _).length_eq, List.filter_filter,
      ← List.countP_eq_length_filter]
    refine List.countP_congr fun sandbox _ => ?_
    by_cases hmem : sandbox ∈ toPause service w m <;> simp [hmem]
  rw [count_mapStatus, hleft]
  unfold toPause
  rw [filter_notMem_take (nodup_runningOldest service w), List.length_drop, length_runningOldest]
  omega

/-- Only the oldest are paused. -/
theorem onlyOldestPaused (service : Service) (maxNumSandboxes : ℕ) (w : World) :
    OnlyOldestPaused service maxNumSandboxes w := by
  intro w' ids hpause a ha hgone
  have hm : 0 < maxNumSandboxes - 1 := by
    by_contra hzero
    unfold Service.pauseOldSandboxes at hpause
    rw [if_pos (Nat.le_of_not_lt hzero)] at hpause
    cases hpause
  obtain ⟨ids', heq⟩ := pauseOldSandboxes_eq service w hm
  rw [heq] at hpause
  cases hpause
  have hpaused : a ∈ toPause service w (maxNumSandboxes - 1) := by
    by_contra hnot
    exact hgone (List.mem_map.mpr ⟨a, ha, by simp only [if_neg hnot]⟩)
  refine ⟨(mem_runningOldest_iff.mp (List.mem_of_mem_take hpaused)).2.1,
    (mem_runningOldest_iff.mp (List.mem_of_mem_take hpaused)).2.2, fun b hb hstays hsees hrun => ?_⟩
  have hkept : b ∉ toPause service w (maxNumSandboxes - 1) := by
    intro hmem
    obtain ⟨c, hc, hcb⟩ := List.mem_map.mp hstays
    -- the sandbox of that id is the one that is paused
    have hsame : c = b := w.eq_of_id hc hb (by rw [← hcb])
    subst hsame
    simp only [if_pos hmem] at hcb
    rw [← hcb] at hrun
    cases hrun
  have hbehind : b ∈ (runningOldest service w).drop (w.count service .running
      - (maxNumSandboxes - 1)) := by
    have hmem : b ∈ runningOldest service w := mem_runningOldest_iff.mpr ⟨hb, hsees, hrun⟩
    rw [← List.take_append_drop (w.count service .running - (maxNumSandboxes - 1))
      (runningOldest service w)] at hmem
    exact (List.mem_append.mp hmem).resolve_left hkept
  exact key_le_of_mem_sortOldest _ _ a hpaused b hbehind

/-! ## One more sandbox -/

/-- Those that are running or starting. -/
theorem active_eq (service : Service) (w : World) : w.active service
    = w.sandboxes.countP fun sandbox =>
        service.sees sandbox ∧ (sandbox.status = .running ∨ sandbox.status = .starting) := by
  refine countP_add_countP (fun sandbox => ?_) (fun sandbox h => ?_) w.sandboxes
  · rw [Bool.eq_iff_iff]
    simp only [Bool.or_eq_true, decide_eq_true_iff]
    tauto
  · rw [decide_eq_true_iff] at h
    simp [h.2]

theorem active_add_le (service : Service) (w : World) (sandbox : Sandbox) :
    (w.add sandbox).active service ≤ w.active service + 1 := by
  unfold World.add
  split
  · exact Nat.le_succ _
  · rw [active_eq, active_eq]
    show (w.sandboxes ++ [sandbox]).countP _ ≤ _
    rw [List.countP_append]
    exact Nat.add_le_add_left List.countP_le_length _

/-- A change of the sandbox of one id. -/
theorem active_mapStatus_le (service : Service) (w : World) (id : String)
    {f : Sandbox → Sandboxes.SandboxStatus}
    (hf : ∀ sandbox, sandbox.id ≠ id → f sandbox = sandbox.status) :
    (w.mapStatus f).active service ≤ w.active service + 1 := by
  have hone : (w.sandboxes.countP fun sandbox => sandbox.id = id) ≤ 1 := by
    have hcount := List.nodup_iff_count_le_one.mp w.nodup id
    rw [List.count_eq_countP, List.countP_map] at hcount
    refine Nat.le_trans (Nat.le_of_eq (List.countP_congr fun sandbox _ => ?_)) hcount
    simp
  rw [active_eq, active_eq]
  show (w.sandboxes.map _).countP _ ≤ _
  rw [List.countP_map]
  refine Nat.le_trans (countP_le_add (fun sandbox h => ?_) w.sandboxes)
    (Nat.add_le_add_left hone _)
  by_cases hid : sandbox.id = id
  · exact Or.inr (decide_eq_true hid)
  · left
    simp only [Function.comp, sees_status, hf sandbox hid] at h
    exact h

/-- After the pausing of old sandboxes. -/
theorem active_paused (service : Service) (w : World) (m : ℕ) :
    (w.mapStatus fun sandbox =>
      if sandbox ∈ toPause service w m then .paused else sandbox.status).active service
        = w.count service .starting + min (w.count service .running) m := by
  unfold World.active
  rw [count_running_paused, count_starting_paused, Nat.add_comm]

/-- A sandbox with a new id that the service sees and that is starting is one more. -/
theorem active_add (service : Service) (w : World) {sandbox : Sandbox}
    (hid : sandbox.id ∉ w.sandboxes.map Sandbox.id) (hsees : service.sees sandbox = true)
    (hstatus : sandbox.status = .starting) :
    (w.add sandbox).active service = w.active service + 1 := by
  unfold World.add
  rw [dif_neg hid, active_eq, active_eq]
  show (w.sandboxes ++ [sandbox]).countP _ = _
  rw [List.countP_append, List.countP_singleton, if_pos]
  rw [decide_eq_true_iff]
  exact ⟨hsees, Or.inr hstatus⟩

theorem sees_newSandbox (service : Service) (random : String) (now : ℕ) (accepted : Bool) :
    service.sees (service.newSandbox random now accepted) = true := by
  cases service with
  | remote userId =>
    refine decide_eq_true fun user huser => ?_
    exact (Option.filter_eq_some_iff.mp huser).1
  | docker containerNamePrefix =>
    refine decide_eq_true ?_
    show containerNamePrefix.toList <+: (containerNamePrefix ++ random).toList
    rw [String.toList_append]
    exact List.prefix_append _ _

/-- A start whose request succeeds keeps the limit if and only if it has room. -/
theorem limitHolds_accepted_iff {random : String} {now : ℕ}
    (hnew : (service.newSandbox random now true).id ∉ w.sandboxes.map Sandbox.id) :
    LimitHolds service maxNumSandboxes w (.start random now true) ↔
      HasRoom service maxNumSandboxes w (.start random now true) := by
  by_cases htwo : 2 ≤ maxNumSandboxes
  · obtain ⟨ids, heq⟩ := pauseOldSandboxes_eq service w
      (show 0 < maxNumSandboxes - 1 by omega)
    have hperform : perform service maxNumSandboxes w (.start random now true)
        = (w.mapStatus fun sandbox =>
            if sandbox ∈ toPause service w (maxNumSandboxes - 1) then .paused
            else sandbox.status).add (service.newSandbox random now true) := by
      simp only [perform, Service.startSandbox, heq, Option.map_some, Option.getD_some]
    have hactive : (perform service maxNumSandboxes w (.start random now true)).active service
        = w.count service .starting + min (w.count service .running) (maxNumSandboxes - 1) + 1 := by
      rw [hperform, active_add service _ ?_ (sees_newSandbox service random now true),
        active_paused]
      · cases service <;> rfl
      · show _ ∉ (w.sandboxes.map _).map Sandbox.id
        rw [List.map_map]
        exact hnew
    constructor
    · intro h
      have hle := h.2.1
      rw [hactive] at hle
      exact ⟨htwo, hle⟩
    · intro h
      exact ⟨by rw [heq]; rfl, by rw [hactive]; exact h.2, onlyOldestPaused _ _ _⟩
  · -- the helper raises for a number that is not positive
    refine iff_of_false (fun h => ?_) fun h => htwo h.1
    have hsome := h.1
    unfold Service.pauseOldSandboxes at hsome
    rw [if_pos (by omega)] at hsome
    cases hsome

/-- A call that has room keeps the limit. -/
theorem limitHolds_of_hasRoom (move : Move) (h : HasRoom service maxNumSandboxes w move) :
    LimitHolds service maxNumSandboxes w move := by
  cases move with
  | start random now accepted =>
    obtain ⟨htwo, hroom⟩ := h
    obtain ⟨ids, heq⟩ := pauseOldSandboxes_eq service w
      (show 0 < maxNumSandboxes - 1 by omega)
    refine ⟨by rw [heq]; rfl, ?_, onlyOldestPaused service maxNumSandboxes w⟩
    have hactive := active_paused service w (maxNumSandboxes - 1)
    simp only [perform, Service.startSandbox, heq, Option.map_some, Option.getD_some]
    split
    · omega
    · refine Nat.le_trans (active_add_le service _ _) ?_
      omega
  | resume id accepted ready =>
    obtain ⟨htwo, hroom⟩ := h
    obtain ⟨ids, heq⟩ := pauseOldSandboxes_eq service w
      (show 0 < maxNumSandboxes - 1 by omega)
    refine ⟨?_, onlyOldestPaused service maxNumSandboxes w⟩
    have hactive := active_paused service w (maxNumSandboxes - 1)
    simp only [perform, Service.resumeSandbox, heq, Option.map_some, Option.getD_some]
    refine Nat.le_trans (active_mapStatus_le service _ id fun sandbox hid => ?_) (by omega)
    unfold Service.resumes
    rw [if_neg]
    simp [hid]
  | pause id => trivial
  | becomeRunning id => trivial

/-- **The limit on sandboxes holds** in every run in which each start and each resume has room. -/
theorem limitHolds_steps (service : Service) (maxNumSandboxes : ℕ) (w : World)
    (moves : List Move)
    (hroom : ∀ p ∈ steps (perform service maxNumSandboxes) w moves,
      HasRoom service maxNumSandboxes p.1 p.2) :
    ∀ p ∈ steps (perform service maxNumSandboxes) w moves,
      LimitHolds service maxNumSandboxes p.1 p.2 :=
  fun p hp => limitHolds_of_hasRoom p.2 (hroom p hp)

/-- The service of docker with its usual prefix. -/
def dockerService : Service := .docker "oh-agent-server-"

/-- No containers. -/
def noContainers : World := ⟨[], List.nodup_nil⟩

/-- Two containers that are starting. -/
def twoStarting : World where
  sandboxes := [⟨"oh-agent-server-a", none, 1, .starting⟩, ⟨"oh-agent-server-b", none, 2, .starting⟩]
  nodup := by decide

/-- Two containers that are running. -/
def twoRunning : World where
  sandboxes := [⟨"oh-agent-server-a", none, 1, .running⟩, ⟨"oh-agent-server-b", none, 2, .running⟩]
  nodup := by decide

/-- A third sandbox starts while two are running, of which one has to be paused for it. -/
theorem limitHolds_steps_third : twoRunning.count dockerService .running = 2 ∧
    LimitHolds dockerService 2 twoRunning (.start "c" 3 true) := by
  refine ⟨by decide, limitHolds_steps dockerService 2 twoRunning [.start "c" 3 true]
    (fun p hp => ?_) (twoRunning, .start "c" 3 true) (List.mem_singleton_self _)⟩
  rw [steps_cons, steps_nil, List.mem_singleton] at hp
  subst hp
  exact ⟨Nat.le_refl 2, by decide⟩

/-- With a limit of one no sandbox can be started, and with a limit of two a third one is started
while two are starting. -/
theorem not_limitHolds_steps :
    (¬ ∀ p ∈ steps (perform dockerService 1) noContainers [.start "a" 1 true],
      LimitHolds dockerService 1 p.1 p.2) ∧
    ¬ ∀ p ∈ steps (perform dockerService 2) twoStarting [.start "c" 3 true],
      LimitHolds dockerService 2 p.1 p.2 := by
  constructor
  · intro h
    have hstart := h _ (List.mem_singleton_self _)
    exact absurd ((limitHolds_accepted_iff (by decide)).mp hstart).1 (by decide)
  · intro h
    have hstart := h _ (List.mem_singleton_self _)
    exact absurd ((limitHolds_accepted_iff (by decide)).mp hstart).2 (by decide)

end OpenHands.SandboxLimit
