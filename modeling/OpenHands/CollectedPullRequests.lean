/-
# What is collected of a pull request

An API that serves the three lists of a pull request in pages, and `save_full_pr` against it.  A
list that is exhausted while another one goes on is read from its first page again, so the loop
ends after as many rounds as the least common multiple of the three numbers of pages, and each
list has then been collected so many times over.
-/
import OpenHands.Lib.CyclicPages
import OpenHands.Lib.Fallible
import OpenHands.PullRequests

namespace OpenHands.PullRequests

open CyclicPages PyStr

/-! ## A served pull request -/

section

variable {α : Type}

/-- The pages of a list from a cursor on. -/
def ServesPages (serve : Option String → Connection α) (after : Option String) :
    List (List α) → Prop
  | [] => False
  | [page] => (serve after).nodes = page ∧ (serve after).pageInfo.hasNextPage = false
  | page :: pages =>
    (serve after).nodes = page ∧ (serve after).pageInfo.hasNextPage = true ∧
      ServesPages serve (serve after).pageInfo.endCursor pages

/-- A list that is served in pages which depend only on the cursor; a null cursor means the first
page. -/
structure PagedList (α : Type) where
  serve : Option String → Connection α
  pages : List (List α)
  serves : ServesPages serve none pages

namespace PagedList

/-- The whole list. -/
def items (list : PagedList α) : List α := list.pages.flatten

/-- The list as the loop reads it. -/
def reader (list : PagedList α) : Reader (Option String) α where
  start := none
  page := fun after => (list.serve after).nodes
  last := fun after => !(list.serve after).pageInfo.hasNextPage
  next := fun after => nextCursor (list.serve after)

theorem reads (list : PagedList α) : list.reader.Reads list.reader.start list.pages := by
  have hreads : ∀ (pages : List (List α)) (after : Option String),
      ServesPages list.serve after pages → list.reader.Reads after pages := by
    intro pages
    induction pages with
    | nil => exact fun after h => h
    | cons page pages ih =>
      intro after h
      cases pages with
      | nil =>
        obtain ⟨hnodes, hlast⟩ := h
        refine ⟨hnodes, by simp [reader, hlast], ?_⟩
        show nextCursor (list.serve after) = none
        rw [nextCursor, hlast]
        rfl
      | cons page' pages =>
        obtain ⟨hnodes, hmore, hrest⟩ := h
        refine ⟨hnodes, by simp [reader, hmore], ih _ ?_⟩
        show ServesPages list.serve (nextCursor (list.serve after)) (page' :: pages)
        rw [nextCursor, if_pos hmore]
        exact hrest
  exact hreads list.pages none list.serves

theorem length_pos (list : PagedList α) : 0 < list.pages.length := Reader.length_pos list.reads

end PagedList

end

/-- A pull request and its repository. -/
structure PullRequest where
  repoName : String
  owner : Actor
  languages : List String
  number : ℤ
  title : String
  body : String
  author : Option Actor
  merged : Bool
  mergedBy : Option Actor
  state : String
  mergeCommit : Option String
  commits : PagedList Commit
  comments : PagedList Comment
  reviews : PagedList Review

/-- A review as the query asks for it: `comments(first: 50)`. -/
def Review.inAnswer (review : Review) : Review :=
  { review with comments := review.comments.take 50 }

namespace PullRequest

variable (pr : PullRequest)

/-- The pages at three cursors. -/
def prData (vars : Variables) : PrData where
  number := pr.number
  title := pr.title
  body := pr.body
  author := pr.author
  merged := pr.merged
  mergedBy := pr.mergedBy
  state := pr.state
  mergeCommit := pr.mergeCommit
  commits := pr.commits.serve vars.commitsAfter
  comments := pr.comments.serve vars.commentsAfter
  reviews :=
    let page := pr.reviews.serve vars.reviewsAfter
    { page with nodes := page.nodes.map Review.inAnswer }

def repoData (vars : Variables) : RepoData where
  name := pr.repoName
  owner := pr.owner
  languages := pr.languages
  pullRequest := some (pr.prData vars)

/-- The answer of the API. -/
def answer (vars : Variables) : Except PyError RepoData := .ok (pr.repoData vars)

end PullRequest

/-! ## What there is to collect -/

/-- The data of a commit. -/
def Commit.data (commit : Commit) : CommitData where
  sha := commit.oid
  message := commit.message
  committedDate := commit.committedDate
  authorName := commit.author.bind GitActor.name
  authorEmail := commit.author.bind GitActor.email
  githubLogin := ((commit.author.bind GitActor.user).map Actor.login).getD ""
  additions := commit.additions
  deletions := commit.deletions
  changedFiles := commit.changedFiles

/-- The data of a comment. -/
def Comment.data (type : CommentType) (comment : Comment) : CommentData where
  author := (comment.author.map Actor.login).getD ""
  body := comment.body
  createdAt := comment.createdAt
  type := type

/-- The review itself, if it has a body, and its comments. -/
def Review.entries (review : Review) : List CommentData :=
  (if isBlank review.body then []
    else [{
      author := (review.author.map Actor.login).getD ""
      body := review.body
      createdAt := review.createdAt
      state := some review.state
      type := .review }]) ++ review.comments.map (Comment.data .reviewComment)

/-- A user of OpenHands. -/
def Actor.isOpenhands (actor : Actor) : Bool := checkOpenhandsAuthor "" (lower actor.login)

/-- A commit of OpenHands, by the name or the login of its author. -/
def Commit.byOpenhands (commit : Commit) : Bool :=
  commit.author.any fun author =>
    checkOpenhandsAuthor (lower (author.name.getD ""))
      (lower ((author.user.map Actor.login).getD ""))

/-- A review of OpenHands with a body, and comments of OpenHands. -/
def Review.numByOpenhands (review : Review) : ℕ :=
  (if !isBlank review.body && review.author.any Actor.isOpenhands then 1 else 0)
    + review.comments.countP fun comment => comment.author.any Actor.isOpenhands

namespace PullRequest

variable (pr : PullRequest)

/-- The true numbers. -/
def openhandsStats : OpenhandsStats where
  numCommits := pr.commits.items.countP Commit.byOpenhands
  numReviewComments := (pr.reviews.items.map Review.numByOpenhands).sum
  numGeneralComments := pr.comments.items.countP fun comment => comment.author.any Actor.isOpenhands

/-- The number of rounds of the loop. -/
def rounds : ℕ :=
  Nat.lcm (Nat.lcm pr.commits.pages.length pr.comments.pages.length) pr.reviews.pages.length

/-- The pull request is saved: the call comes to an end, and then everything of the three lists is
in the file exactly once, and the true numbers are in the file and are given to the store. -/
def IsSaved : Prop :=
  ∀ (token nodeId : String) (openhandsPr : OpenhandsPr) (stored : Stored), ∃ stored' data,
    (∃ enough, ∀ fuel, enough ≤ fuel →
      saveFullPr (.ok token) (fun _ => pr.answer) nodeId openhandsPr stored fuel
        = some (.ok stored')) ∧
    stored'.files (fullSavedPrPath openhandsPr.repoId openhandsPr.prNumber) = some data ∧
    data.commits.Perm (pr.commits.items.map Commit.data) ∧
    data.comments.Perm (pr.comments.items.map (Comment.data .prComment)) ∧
    data.reviewComments.Perm (pr.reviews.items.flatMap Review.entries) ∧
    data.openhandsStats = pr.openhandsStats ∧
    stored'.prs = (updatePrOpenhandsStats openhandsPr.repoId openhandsPr.prNumber
      openhandsPr.updatedAt pr.openhandsStats stored.prs).1

/-- The number of times that the reviews are read. -/
def reviewPasses : ℕ := pr.rounds / pr.reviews.pages.length

/-- Every review and every comment of a review is in the answers as many times as there are of
it: the reviews are read once, and none has more comments than an answer holds.  (If some of them
are alike, too many passes can make up for comments that are in no answer.) -/
def ReviewsOnce : Prop :=
  ∀ entry, pr.reviewPasses * (pr.reviews.items.flatMap fun review =>
    review.inAnswer.entries).count entry = (pr.reviews.items.flatMap Review.entries).count entry

/-- Nothing that is read of an author is null, and every list that has something in it has as many
pages as there are rounds. -/
structure Collectable : Prop where
  commits : ∀ commit ∈ pr.commits.items,
    ∃ author ∈ commit.author, author.name.isSome ∧ author.user.isSome
  comments : ∀ comment ∈ pr.comments.items, comment.author.isSome
  reviews : ∀ review ∈ pr.reviews.items, isBlank review.body = true ∨ review.author.isSome
  reviewComments : ∀ review ∈ pr.reviews.items, ∀ comment ∈ review.inAnswer.comments,
    comment.author.isSome
  commits_once : pr.commits.items ≠ [] → pr.commits.pages.length = pr.rounds
  comments_once : pr.comments.items ≠ [] → pr.comments.pages.length = pr.rounds
  reviews_once : pr.ReviewsOnce

end PullRequest

/-! ## One round -/

/-- No field that is read of the author of a commit is null; its name is read later. -/
def Commit.isComplete (commit : Commit) : Bool := (commit.author.bind GitActor.user).isSome

def Comment.isComplete (comment : Comment) : Bool := comment.author.isSome

def Review.isComplete (review : Review) : Bool :=
  (isBlank review.body || review.author.isSome) && review.comments.all Comment.isComplete

def PrData.isComplete (prData : PrData) : Bool :=
  prData.commits.nodes.all Commit.isComplete && prData.comments.nodes.all Comment.isComplete &&
    prData.reviews.nodes.all Review.isComplete

theorem commitData_eq (commit : Commit) :
    commitData commit = if commit.isComplete then .ok commit.data else .error .attributeError := by
  unfold commitData Commit.isComplete Commit.data
  cases commit.author with
  | none => rfl
  | some author =>
    obtain ⟨name, email, user⟩ := author
    cases user <;> rfl

theorem commentData_eq (type : CommentType) (comment : Comment) :
    commentData type comment
      = if comment.isComplete then .ok (comment.data type) else .error .attributeError := by
  unfold commentData Comment.isComplete Comment.data
  cases comment.author with
  | none => rfl
  | some author => rfl

theorem reviewEntries_eq (review : Review) :
    reviewEntries review
      = if review.isComplete then .ok review.entries else .error .attributeError := by
  unfold reviewEntries Review.isComplete Review.entries
  rw [Fallible.mapM_eq_ite (commentData_eq .reviewComment)]
  unfold reviewData
  cases isBlank review.body with
  | true =>
    cases review.comments.all Comment.isComplete <;> rfl
  | false =>
    cases review.author with
    | none => rfl
    | some author => cases review.comments.all Comment.isComplete <;> rfl

/-- What a round adds, if nothing that is read is null. -/
theorem addPage_eq (collected : Collected) (repoData : RepoData) (prData : PrData) :
    collected.addPage repoData prData = if prData.isComplete then .ok {
        commits := collected.commits ++ prData.commits.nodes.map Commit.data
        prComments := collected.prComments
          ++ prData.comments.nodes.map (Comment.data .prComment)
        reviewComments := collected.reviewComments ++ prData.reviews.nodes.flatMap Review.entries
        data := some (repoData, prData)
        commitsAfter := nextCursor prData.commits
        commentsAfter := nextCursor prData.comments
        reviewsAfter := nextCursor prData.reviews }
      else .error .attributeError := by
  unfold Collected.addPage processCommitsPage processPrCommentsPage processReviewCommentsPage
    PrData.isComplete
  rw [Fallible.mapM_eq_ite commitData_eq, Fallible.mapM_eq_ite (commentData_eq .prComment),
    Fallible.mapM_eq_ite reviewEntries_eq]
  cases prData.commits.nodes.all Commit.isComplete with
  | false => rfl
  | true =>
    cases prData.comments.nodes.all Comment.isComplete with
    | false => rfl
    | true => cases prData.reviews.nodes.all Review.isComplete <;> rfl

namespace PullRequest

variable (pr : PullRequest) (nodeId : String) (prNumber : ℤ)

/-! ## The rounds -/

/-- The variables of a round. -/
def request (k : ℕ) : Variables where
  nodeId
  prNumber
  commitsAfter := pr.commits.reader.cursor k
  commentsAfter := pr.comments.reader.cursor k
  reviewsAfter := pr.reviews.reader.cursor k

/-- The pages of a round. -/
def round (k : ℕ) : PrData := pr.prData (pr.request nodeId prNumber k)

/-- What has been collected before a round. -/
def collectedBefore (k : ℕ) : Collected where
  commits := (pr.commits.reader.readBefore k).map Commit.data
  prComments := (pr.comments.reader.readBefore k).map (Comment.data .prComment)
  reviewComments := (pr.reviews.reader.readBefore k).flatMap fun review => review.inAnswer.entries
  data :=
    match k with
    | 0 => none
    | k + 1 =>
      some (pr.repoData (pr.request nodeId prNumber k), pr.prData (pr.request nodeId prNumber k))
  commitsAfter := pr.commits.reader.cursor k
  commentsAfter := pr.comments.reader.cursor k
  reviewsAfter := pr.reviews.reader.cursor k

theorem collectedBefore_zero : pr.collectedBefore nodeId prNumber 0 = {} := rfl

variable {nodeId prNumber}

theorem addPage_collectedBefore (k : ℕ) :
    (pr.collectedBefore nodeId prNumber k).addPage
        (pr.repoData (pr.request nodeId prNumber k)) (pr.round nodeId prNumber k)
      = if (pr.round nodeId prNumber k).isComplete then
          .ok (pr.collectedBefore nodeId prNumber (k + 1))
        else .error .attributeError := by
  rw [addPage_eq]
  split_ifs
  · congr 1
    unfold collectedBefore
    rw [Reader.readBefore_succ, Reader.readBefore_succ, Reader.readBefore_succ, List.map_append,
      List.map_append, List.flatMap_append, Reader.cursor_succ, Reader.cursor_succ,
      Reader.cursor_succ]
    show Collected.mk _ _ (_ ++ List.flatMap Review.entries (List.map Review.inAnswer _)) _ _ _ _ = _
    rw [List.flatMap_map]
    rfl
  · rfl

theorem rounds_dvd_iff (n : ℕ) : pr.rounds ∣ n ↔ pr.commits.pages.length ∣ n ∧
    pr.comments.pages.length ∣ n ∧ pr.reviews.pages.length ∣ n := by
  unfold rounds
  rw [Nat.lcm_dvd_iff, Nat.lcm_dvd_iff, and_assoc]

theorem rounds_pos : 0 < pr.rounds :=
  Nat.lcm_pos (Nat.lcm_pos pr.commits.length_pos pr.comments.length_pos) pr.reviews.length_pos

/-- The loop ends in the round in which all lists are at their last pages. -/
theorem hasMore_round_iff (k : ℕ) :
    hasMore (pr.round nodeId prNumber k) = false ↔ pr.rounds ∣ k + 1 := by
  rw [rounds_dvd_iff, ← Reader.last_cursor_iff pr.commits.reads k,
    ← Reader.last_cursor_iff pr.comments.reads k, ← Reader.last_cursor_iff pr.reviews.reads k]
  unfold hasMore round
  rw [Bool.or_eq_false_iff, Bool.or_eq_false_iff, and_assoc, ← Bool.not_eq_true',
    ← Bool.not_eq_true', ← Bool.not_eq_true']
  rfl

/-- One round of the loop. -/
theorem fetchPages_succ (fuel k : ℕ) :
    fetchPages pr.answer nodeId prNumber (fuel + 1) (pr.collectedBefore nodeId prNumber k)
      = if (pr.round nodeId prNumber k).isComplete then
          if hasMore (pr.round nodeId prNumber k) then
            fetchPages pr.answer nodeId prNumber fuel (pr.collectedBefore nodeId prNumber (k + 1))
          else some (.ok (pr.collectedBefore nodeId prNumber (k + 1)))
        else some (.error .attributeError) := by
  have hanswer : pr.answer (pr.request nodeId prNumber k)
      = .ok (pr.repoData (pr.request nodeId prNumber k)) := rfl
  have hfound : (pr.repoData (pr.request nodeId prNumber k)).pullRequest
      = some (pr.round nodeId prNumber k) := rfl
  have hstep := @addPage_collectedBefore pr nodeId prNumber k
  rw [fetchPages]
  unfold request at hanswer hfound hstep
  simp only [collectedBefore] at hstep ⊢
  rw [hanswer]
  simp only [hfound, hstep]
  split_ifs <;> rfl

/-- The loop from a round on: it comes to its end, or a page that is not complete ends it. -/
theorem fetchPages_collectedBefore {fuel k : ℕ} (hk : k < pr.rounds) (hfuel : pr.rounds ≤ k + fuel) :
    fetchPages pr.answer nodeId prNumber fuel (pr.collectedBefore nodeId prNumber k)
      = some (if ∀ j, k ≤ j → j < pr.rounds → (pr.round nodeId prNumber j).isComplete = true then
          .ok (pr.collectedBefore nodeId prNumber pr.rounds)
        else .error .attributeError) := by
  induction fuel generalizing k with
  | zero => omega
  | succ fuel ih =>
    rw [pr.fetchPages_succ]
    by_cases hcomplete : (pr.round nodeId prNumber k).isComplete = true
    · rw [if_pos hcomplete]
      by_cases hlast : k + 1 = pr.rounds
      · -- The last round.
        have hmore : hasMore (pr.round nodeId prNumber k) = false :=
          (pr.hasMore_round_iff k).mpr (by rw [hlast])
        rw [hmore, if_neg Bool.false_ne_true, hlast, if_pos]
        intro j hge hlt
        obtain rfl : j = k := by omega
        exact hcomplete
      · have hmore : hasMore (pr.round nodeId prNumber k) = true := by
          rw [← Bool.not_eq_false, pr.hasMore_round_iff]
          intro hdvd
          have hle := Nat.le_of_dvd (Nat.succ_pos k) hdvd
          omega
        rw [if_pos hmore, ih (by omega) (by omega)]
        congr 1
        apply if_congr _ rfl rfl
        constructor
        · intro h j hge hlt
          rcases Nat.eq_or_lt_of_le hge with rfl | hgt
          · exact hcomplete
          · exact h j hgt hlt
        · exact fun h j hge hlt => h j (by omega) hlt
    · rw [if_neg hcomplete, if_neg]
      exact fun h => hcomplete (h k (le_refl k) hk)

/-! ## What is saved -/

/-- No field that is read while the pages are processed is null. -/
def IsComplete : Prop :=
  (∀ commit ∈ pr.commits.items, commit.isComplete = true) ∧
    (∀ comment ∈ pr.comments.items, comment.isComplete = true) ∧
      ∀ review ∈ pr.reviews.items, review.inAnswer.isComplete = true

instance : Decidable pr.IsComplete := inferInstanceAs (Decidable (_ ∧ _ ∧ _))

theorem commits_dvd : pr.commits.pages.length ∣ pr.rounds :=
  ((pr.rounds_dvd_iff _).mp dvd_rfl).1

theorem comments_dvd : pr.comments.pages.length ∣ pr.rounds :=
  ((pr.rounds_dvd_iff _).mp dvd_rfl).2.1

theorem reviews_dvd : pr.reviews.pages.length ∣ pr.rounds :=
  ((pr.rounds_dvd_iff _).mp dvd_rfl).2.2

/-- A list has been read when the loop ends. -/
theorem forall_rounds_iff {α : Type} (list : PagedList α) (hdvd : list.pages.length ∣ pr.rounds)
    (p : α → Prop) :
    (∀ j < pr.rounds, ∀ a ∈ (list.serve (list.reader.cursor j)).nodes, p a) ↔
      ∀ a ∈ list.items, p a := by
  have hread : ∀ a, a ∈ list.reader.readBefore pr.rounds ↔ a ∈ list.items :=
    fun a => Reader.mem_readBefore_iff list.reads hdvd pr.rounds_pos
  refine Iff.trans (Reader.forall_mem_readBefore_iff (r := list.reader)).symm ?_
  simp only [hread]

theorem forall_isComplete_round_iff :
    (∀ j, 0 ≤ j → j < pr.rounds → (pr.round nodeId prNumber j).isComplete = true) ↔
      pr.IsComplete := by
  unfold IsComplete
  rw [← pr.forall_rounds_iff pr.commits pr.commits_dvd,
    ← pr.forall_rounds_iff pr.comments pr.comments_dvd,
    ← pr.forall_rounds_iff pr.reviews pr.reviews_dvd]
  have hround : ∀ j, (pr.round nodeId prNumber j).isComplete = true ↔
      (∀ commit ∈ (pr.commits.serve (pr.commits.reader.cursor j)).nodes,
        commit.isComplete = true) ∧
      (∀ comment ∈ (pr.comments.serve (pr.comments.reader.cursor j)).nodes,
        comment.isComplete = true) ∧
      ∀ review ∈ (pr.reviews.serve (pr.reviews.reader.cursor j)).nodes,
        review.inAnswer.isComplete = true := by
    intro j
    unfold PrData.isComplete
    rw [Bool.and_eq_true, Bool.and_eq_true, List.all_eq_true, List.all_eq_true, List.all_eq_true,
      and_assoc]
    show _ ∧ _ ∧ (∀ review ∈ List.map Review.inAnswer _, _) ↔ _
    rw [List.forall_mem_map]
    rfl
  simp only [hround]
  constructor
  · intro h
    exact ⟨fun j hj => (h j (Nat.zero_le j) hj).1, fun j hj => (h j (Nat.zero_le j) hj).2.1,
      fun j hj => (h j (Nat.zero_le j) hj).2.2⟩
  · exact fun ⟨hcommits, hcomments, hreviews⟩ j _ hj =>
      ⟨hcommits j hj, hcomments j hj, hreviews j hj⟩

/-- **`save_full_pr` comes to an end**, with everything read or with nothing stored. -/
theorem saveFullPr_eq (token nodeId : String) (openhandsPr : OpenhandsPr) (stored : Stored)
    {fuel : ℕ} (hfuel : pr.rounds ≤ fuel) :
    saveFullPr (.ok token) (fun _ => pr.answer) nodeId openhandsPr stored fuel
      = some (if pr.IsComplete then
          storeCollected openhandsPr (pr.collectedBefore nodeId openhandsPr.prNumber pr.rounds)
            stored
        else .ok stored) := by
  have hloop := @fetchPages_collectedBefore pr nodeId openhandsPr.prNumber fuel 0 pr.rounds_pos
    (by omega)
  show (fetchPages pr.answer nodeId openhandsPr.prNumber fuel {}).map _ = _
  rw [← pr.collectedBefore_zero nodeId openhandsPr.prNumber, hloop, Option.map_some]
  by_cases hcomplete : pr.IsComplete
  · rw [if_pos hcomplete, if_pos (pr.forall_isComplete_round_iff.mpr hcomplete)]
  · rw [if_neg hcomplete, if_neg fun h => hcomplete (pr.forall_isComplete_round_iff.mp h)]

end PullRequest

/-! ## Counts -/

/-- Nobody without a name and a login is counted. -/
theorem checkOpenhandsAuthor_empty : checkOpenhandsAuthor (lower "") (lower "") = false := by
  decide

/-- The count of comments looks at their authors. -/
theorem isOpenhandsComment_data (type : CommentType) (comment : Comment) :
    isOpenhandsComment (comment.data type) = comment.author.any Actor.isOpenhands := by
  unfold isOpenhandsComment Comment.data
  cases comment.author with
  | none => exact checkOpenhandsAuthor_empty
  | some author => rfl

theorem countP_entries (review : Review) :
    review.entries.countP isOpenhandsComment = review.numByOpenhands := by
  unfold Review.entries Review.numByOpenhands
  rw [List.countP_append, List.countP_map]
  congr 1
  · cases isBlank review.body with
    | true => rfl
    | false =>
      cases hauthor : review.author with
      | none =>
        have hnobody : checkOpenhandsAuthor "" (lower "") = false := checkOpenhandsAuthor_empty
        simp [isOpenhandsComment, hnobody]
      | some author =>
        rw [if_neg Bool.false_ne_true, List.countP_singleton]
        rfl
  · apply List.countP_congr
    intro comment _
    rw [Function.comp, isOpenhandsComment_data]

/-- A commit is counted if its author has a name. -/
theorem isOpenhandsCommit_eq (commit : CommitData) :
    isOpenhandsCommit commit = if commit.authorName.isSome then
        .ok (checkOpenhandsAuthor (lower (commit.authorName.getD "")) (lower commit.githubLogin))
      else .error .attributeError := by
  unfold isOpenhandsCommit
  cases commit.authorName <;> rfl

theorem checkOpenhandsAuthor_data (commit : Commit) :
    checkOpenhandsAuthor (lower (commit.data.authorName.getD "")) (lower commit.data.githubLogin)
      = commit.byOpenhands := by
  unfold Commit.data Commit.byOpenhands
  cases commit.author with
  | none => exact checkOpenhandsAuthor_empty
  | some author => rfl

theorem countOpenhandsActivity_eq (commits : List CommitData)
    (reviewComments prComments : List CommentData) :
    countOpenhandsActivity commits reviewComments prComments
      = if commits.all (fun commit => commit.authorName.isSome) then .ok
          { numCommits := commits.countP fun commit => checkOpenhandsAuthor
              (lower (commit.authorName.getD "")) (lower commit.githubLogin)
            numReviewComments := reviewComments.countP isOpenhandsComment
            numGeneralComments := prComments.countP isOpenhandsComment }
        else .error .attributeError := by
  unfold countOpenhandsActivity
  rw [Fallible.mapM_eq_ite isOpenhandsCommit_eq]
  cases commits.all (fun commit => commit.authorName.isSome) with
  | false => rfl
  | true =>
    rw [if_pos rfl, if_pos rfl]
    show Except.ok _ = _
    rw [List.count_eq_countP, List.countP_map]
    congr 3
    funext commit
    simp

namespace PullRequest

variable {pr : PullRequest}

/-! ## When everything is saved once -/

/-- A list with as many pages as there are rounds has been read once. -/
theorem readBefore_rounds {α : Type} {list : PagedList α} (hdvd : list.pages.length ∣ pr.rounds)
    (honce : list.items ≠ [] → list.pages.length = pr.rounds) :
    list.reader.readBefore pr.rounds = list.items := by
  rw [Reader.readBefore_of_dvd list.reads hdvd]
  apply flatten_replicate_of
  by_cases hempty : list.items = []
  · exact Or.inl hempty
  · right
    rw [honce hempty]
    exact Nat.div_self pr.rounds_pos

theorem Collectable.isComplete (h : pr.Collectable) : pr.IsComplete := by
  refine ⟨?_, h.comments, ?_⟩
  · intro commit hcommit
    obtain ⟨author, hauthor, -, huser⟩ := h.commits commit hcommit
    unfold Commit.isComplete
    rw [Option.mem_def.mp hauthor]
    exact huser
  · intro review hreview
    unfold Review.isComplete
    rw [Bool.and_eq_true, Bool.or_eq_true, List.all_eq_true]
    exact ⟨h.reviews review hreview, h.reviewComments review hreview⟩

/-- What has been collected of the reviews when the loop ends. -/
theorem collectedBefore_reviewComments (pr : PullRequest) (nodeId : String) (prNumber : ℤ) :
    (pr.collectedBefore nodeId prNumber pr.rounds).reviewComments
      = (List.replicate pr.reviewPasses
          (pr.reviews.items.flatMap fun review => review.inAnswer.entries)).flatten := by
  show (pr.reviews.reader.readBefore pr.rounds).flatMap _ = _
  rw [Reader.readBefore_of_dvd pr.reviews.reads pr.reviews_dvd, flatMap_flatten_replicate]
  rfl

theorem reviewComments_perm_iff (pr : PullRequest) (nodeId : String) (prNumber : ℤ) :
    (pr.collectedBefore nodeId prNumber pr.rounds).reviewComments.Perm
      (pr.reviews.items.flatMap Review.entries) ↔ pr.ReviewsOnce := by
  rw [collectedBefore_reviewComments, List.perm_iff_count]
  apply forall_congr'
  intro entry
  rw [List.count_flatten, List.map_replicate, List.sum_replicate, smul_eq_mul]

/-- What has been collected when the loop ends, if every list has been read once. -/
theorem Collectable.collectedBefore (h : pr.Collectable) (nodeId : String) (prNumber : ℤ) :
    (pr.collectedBefore nodeId prNumber pr.rounds).commits = pr.commits.items.map Commit.data ∧
      (pr.collectedBefore nodeId prNumber pr.rounds).prComments
        = pr.comments.items.map (Comment.data .prComment) ∧
      (pr.collectedBefore nodeId prNumber pr.rounds).reviewComments.Perm
        (pr.reviews.items.flatMap Review.entries) := by
  refine ⟨?_, ?_, ?_⟩
  · show (pr.commits.reader.readBefore pr.rounds).map _ = _
    rw [readBefore_rounds pr.commits_dvd h.commits_once]
  · show (pr.comments.reader.readBefore pr.rounds).map _ = _
    rw [readBefore_rounds pr.comments_dvd h.comments_once]
  · exact (reviewComments_perm_iff pr nodeId prNumber).mpr h.reviews_once

/-- The count of what has been collected gives the true numbers. -/
theorem countOpenhandsActivity_items (h : ∀ commit ∈ pr.commits.items,
    ∃ author ∈ commit.author, author.name.isSome) {reviewComments : List CommentData}
    (hreviews : reviewComments.Perm (pr.reviews.items.flatMap Review.entries)) :
    countOpenhandsActivity (pr.commits.items.map Commit.data) reviewComments
        (pr.comments.items.map (Comment.data .prComment)) = .ok pr.openhandsStats := by
  have hnames : (pr.commits.items.map Commit.data).all
      (fun commit => commit.authorName.isSome) = true := by
    rw [List.all_eq_true, List.forall_mem_map]
    intro commit hcommit
    obtain ⟨author, hauthor, hname⟩ := h commit hcommit
    show (commit.author.bind GitActor.name).isSome = true
    rw [Option.mem_def.mp hauthor]
    exact hname
  rw [countOpenhandsActivity_eq, if_pos hnames]
  congr 1
  unfold openhandsStats
  congr 1
  · rw [List.countP_map]
    apply List.countP_congr
    intro commit _
    rw [Function.comp, checkOpenhandsAuthor_data]
  · rw [hreviews.countP_eq, List.countP_flatMap]
    congr 1
    apply List.map_congr_left
    intro review _
    exact countP_entries review
  · rw [List.countP_map]
    apply List.countP_congr
    intro comment _
    rw [Function.comp, isOpenhandsComment_data]

/-- What is stored of a pull request. -/
theorem storeCollected_eq (openhandsPr : OpenhandsPr) (stored : Stored) {collected : Collected}
    {repoData : RepoData} {prData : PrData} (hdata : collected.data = some (repoData, prData)) :
    storeCollected openhandsPr collected stored
      = (countOpenhandsActivity collected.commits collected.reviewComments
          collected.prComments).map fun stats =>
        { prs := (updatePrOpenhandsStats openhandsPr.repoId openhandsPr.prNumber
            openhandsPr.updatedAt stats stored.prs).1
          files := fun p =>
            if p = fullSavedPrPath openhandsPr.repoId openhandsPr.prNumber then
              some (buildFinalDataStructure repoData prData collected.commits
                collected.prComments collected.reviewComments stats)
            else stored.files p } := by
  unfold storeCollected
  rw [hdata]
  simp only
  cases countOpenhandsActivity collected.commits collected.reviewComments collected.prComments with
  | error e => rfl
  | ok stats => rfl

theorem exists_data (pr : PullRequest) (nodeId : String) (prNumber : ℤ) : ∃ repoData prData,
    (pr.collectedBefore nodeId prNumber pr.rounds).data = some (repoData, prData) := by
  have hpos := pr.rounds_pos
  rw [show pr.rounds = pr.rounds - 1 + 1 by omega]
  exact ⟨_, _, rfl⟩

theorem Collectable.isSaved (h : pr.Collectable) : pr.IsSaved := by
  intro token nodeId openhandsPr stored
  obtain ⟨hcommits, hcomments, hreviews⟩ := h.collectedBefore nodeId openhandsPr.prNumber
  obtain ⟨repoData, prData, hdata⟩ := exists_data pr nodeId openhandsPr.prNumber
  have hnamed : ∀ commit ∈ pr.commits.items, ∃ author ∈ commit.author, author.name.isSome := by
    intro commit hcommit
    obtain ⟨author, hauthor, hname, -⟩ := h.commits commit hcommit
    exact ⟨author, hauthor, hname⟩
  have hstore := storeCollected_eq openhandsPr stored hdata
  rw [hcommits, hcomments, countOpenhandsActivity_items hnamed hreviews] at hstore
  have hsaved := fun fuel => @saveFullPr_eq pr token nodeId openhandsPr stored fuel
  simp only [if_pos h.isComplete, hstore, Except.map] at hsaved
  exact ⟨_, _, ⟨pr.rounds, hsaved⟩, if_pos rfl, .rfl, .rfl, hreviews, rfl, rfl⟩

/-! ## When something is not saved, or twice -/

/-- What the file holds when the call has stored something. -/
theorem IsSaved.exists_stats (h : pr.IsSaved) : pr.IsComplete ∧ ∃ stats,
    countOpenhandsActivity (pr.collectedBefore "" 0 pr.rounds).commits
      (pr.collectedBefore "" 0 pr.rounds).reviewComments
      (pr.collectedBefore "" 0 pr.rounds).prComments = .ok stats ∧
    (pr.collectedBefore "" 0 pr.rounds).commits.Perm (pr.commits.items.map Commit.data) ∧
    (pr.collectedBefore "" 0 pr.rounds).prComments.Perm
      (pr.comments.items.map (Comment.data .prComment)) ∧
    (pr.collectedBefore "" 0 pr.rounds).reviewComments.Perm
      (pr.reviews.items.flatMap Review.entries) := by
  -- There is no file before the call.
  obtain ⟨stored', data, ⟨enough, hend⟩, hfile, hcommits, hcomments, hreviews, -, -⟩ :=
    h "" "" { repoId := "", repoName := "", prNumber := 0, installationId := none, updatedAt := 0 }
      { prs := [], files := fun _ => none }
  have hresult := hend (max enough pr.rounds) (le_max_left _ _)
  rw [pr.saveFullPr_eq _ _ _ _ (le_max_right _ _), Option.some.injEq] at hresult
  by_cases hcomplete : pr.IsComplete
  · refine ⟨hcomplete, ?_⟩
    obtain ⟨repoData, prData, hdata⟩ := exists_data pr "" 0
    rw [if_pos hcomplete, storeCollected_eq _ _ hdata] at hresult
    obtain ⟨stats, hcount, rfl⟩ := Fallible.map_ok_iff.mp hresult
    simp only [if_pos, Option.some.injEq] at hfile
    subst hfile
    exact ⟨stats, hcount, hcommits, hcomments, hreviews⟩
  · rw [if_neg hcomplete] at hresult
    cases hresult
    cases hfile

/-- A list that is in the file once was read once. -/
theorem length_eq_of_perm {α β : Type} {list : PagedList α} (hdvd : list.pages.length ∣ pr.rounds)
    {f : α → β} (h : ((list.reader.readBefore pr.rounds).map f).Perm (list.items.map f))
    (hne : list.items ≠ []) : list.pages.length = pr.rounds := by
  rw [Reader.readBefore_of_dvd list.reads hdvd, List.map_flatten, List.map_replicate] at h
  rcases eq_nil_or_of_perm h with hnil | hone
  · exact absurd (List.map_eq_nil_iff.mp hnil) hne
  · rw [← Nat.div_mul_cancel hdvd, hone, Nat.one_mul]

theorem IsSaved.collectable (h : pr.IsSaved) : pr.Collectable := by
  obtain ⟨⟨hcompleteCommits, hcompleteComments, hcompleteReviews⟩, stats, hcount, hcommits,
    hcomments, hreviews⟩ := h.exists_stats
  rw [countOpenhandsActivity_eq] at hcount
  have hnames : (pr.collectedBefore "" 0 pr.rounds).commits.all
      (fun commit => commit.authorName.isSome) = true := by
    by_contra hmissing
    rw [if_neg hmissing] at hcount
    cases hcount
  rw [hcommits.all_eq, List.all_eq_true, List.forall_mem_map] at hnames
  have hreviewComplete : ∀ review ∈ pr.reviews.items,
      (isBlank review.body = true ∨ review.author.isSome = true) ∧
        ∀ comment ∈ review.inAnswer.comments, comment.author.isSome = true := by
    intro review hreview
    have hcomplete := hcompleteReviews review hreview
    unfold Review.isComplete at hcomplete
    rw [Bool.and_eq_true, Bool.or_eq_true, List.all_eq_true] at hcomplete
    exact hcomplete
  refine ⟨fun commit hcommit => ?_, hcompleteComments, fun review hreview =>
    (hreviewComplete review hreview).1, fun review hreview => (hreviewComplete review hreview).2,
    length_eq_of_perm pr.commits_dvd hcommits, length_eq_of_perm pr.comments_dvd hcomments,
    (reviewComments_perm_iff pr "" 0).mp hreviews⟩
  have hname := hnames commit hcommit
  have huser := hcompleteCommits commit hcommit
  unfold Commit.data at hname
  unfold Commit.isComplete at huser
  cases hauthor : commit.author with
  | none =>
    rw [hauthor] at huser
    cases huser
  | some author =>
    rw [hauthor] at hname huser
    exact ⟨author, rfl, hname, huser⟩

/-- **A pull request is saved** exactly if it is collectable. -/
theorem isSaved_iff (pr : PullRequest) : pr.IsSaved ↔ pr.Collectable :=
  ⟨IsSaved.collectable, Collectable.isSaved⟩

/-- A pull request with two pages of commits and one comment, which is by OpenHands. -/
def twoCommitPages : PullRequest where
  repoName := "agent"
  owner := ⟨"org"⟩
  languages := ["Python"]
  number := 7
  title := "Fix"
  body := ""
  author := some ⟨"ann"⟩
  merged := false
  mergedBy := none
  state := "OPEN"
  mergeCommit := none
  commits :=
    let author : GitActor := ⟨some "Ann", none, some ⟨"ann"⟩⟩
    let first : Commit := ⟨"1a", "first", "2025-01-01", some author, 1, 0, some 1⟩
    let second : Commit := ⟨"2b", "second", "2025-01-02", some author, 1, 0, some 1⟩
    { serve := fun after =>
        if after = some "1a" then ⟨[second], ⟨false, some "2b"⟩⟩ else ⟨[first], ⟨true, some "1a"⟩⟩
      pages := [[first], [second]]
      serves := ⟨rfl, rfl, rfl, rfl⟩ }
  comments :=
    let comment : Comment := ⟨some ⟨"openhands"⟩, "Done", "2025-01-03"⟩
    { serve := fun _ => ⟨[comment], ⟨false, some "c"⟩⟩
      pages := [[comment]]
      serves := ⟨rfl, rfl⟩ }
  reviews :=
    { serve := fun _ => ⟨[], ⟨false, none⟩⟩
      pages := [[]]
      serves := ⟨rfl, rfl⟩ }

/-- The comment is fetched with the second page of the commits again. -/
theorem not_isSaved_twoCommitPages : ¬ twoCommitPages.IsSaved := by
  intro h
  obtain ⟨-, stats, -, -, hcomments, -⟩ := h.exists_stats
  have hrounds : twoCommitPages.rounds = 2 := by decide
  have hlength := length_eq_of_perm twoCommitPages.comments_dvd hcomments (List.cons_ne_nil _ _)
  rw [hrounds] at hlength
  cases hlength

/-! ## Reviews that are in the file once -/

/-- A review with few comments is in the answer as it is. -/
theorem inAnswer_eq {review : Review} (h : review.comments.length ≤ 50) :
    review.inAnswer = review := by
  unfold Review.inAnswer
  rw [List.take_of_length_le h]

/-- The entries of a review in the answer are among its entries. -/
theorem entries_inAnswer_sublist (review : Review) :
    review.inAnswer.entries.Sublist review.entries :=
  (List.Sublist.refl _).append ((List.take_sublist 50 review.comments).map _)

/-- A review all of whose entries are in the answer has few comments. -/
theorem length_le_of_entries {review : Review}
    (h : review.inAnswer.entries.length = review.entries.length) : review.comments.length ≤ 50 := by
  unfold Review.entries Review.inAnswer at h
  simp only [List.length_append, List.length_map, List.length_take] at h
  omega

theorem flatMap_sublist {α β : Type} {f g : α → List β} (h : ∀ a, (f a).Sublist (g a)) :
    ∀ l : List α, (l.flatMap f).Sublist (l.flatMap g)
  | [] => .slnil
  | a :: l => by
    rw [List.flatMap_cons, List.flatMap_cons]
    exact (h a).append (flatMap_sublist h l)

/-- If lists lose nothing together, none of them does. -/
theorem forall_length_eq {α β : Type} {f g : α → List β} (h : ∀ a, (f a).Sublist (g a)) :
    ∀ {l : List α}, (l.flatMap f).length = (l.flatMap g).length →
      ∀ a ∈ l, (f a).length = (g a).length
  | [], _ => fun a ha => absurd ha List.not_mem_nil
  | b :: l, heq => by
    rw [List.flatMap_cons, List.flatMap_cons, List.length_append, List.length_append] at heq
    have hfirst := (h b).length_le
    have hrest := (flatMap_sublist h l).length_le
    rw [List.forall_mem_cons]
    exact ⟨by omega, forall_length_eq h (by omega)⟩

/-- Reviews are in the file once if none of them has too many comments and they are read once. -/
theorem reviewsOnce_of_le (hlength : ∀ review ∈ pr.reviews.items, review.comments.length ≤ 50)
    (honce : pr.reviews.items.flatMap Review.entries ≠ [] → pr.reviews.pages.length = pr.rounds) :
    pr.ReviewsOnce := by
  have hentries : pr.reviews.items.flatMap (fun review => review.inAnswer.entries)
      = pr.reviews.items.flatMap Review.entries := by
    apply List.flatMap_congr
    intro review hreview
    rw [inAnswer_eq (hlength review hreview)]
  intro entry
  rw [hentries]
  by_cases hempty : pr.reviews.items.flatMap Review.entries = []
  · rw [hempty, List.count_nil, Nat.mul_zero]
  · have hpasses : pr.reviewPasses = 1 := by
      unfold reviewPasses
      rw [honce hempty]
      exact Nat.div_self pr.rounds_pos
    rw [hpasses, Nat.one_mul]

/-- **Where no two of them are alike**, reviews and their comments are in the file once only if no
review has too many comments and the reviews are read once. -/
theorem reviewsOnce_iff_of_nodup (hnodup : (pr.reviews.items.flatMap Review.entries).Nodup) :
    pr.ReviewsOnce ↔ (∀ review ∈ pr.reviews.items, review.comments.length ≤ 50) ∧
      (pr.reviews.items.flatMap Review.entries ≠ [] →
        pr.reviews.pages.length = pr.rounds) := by
  refine ⟨fun h => ?_, fun h => reviewsOnce_of_le h.1 h.2⟩
  rw [← reviewComments_perm_iff pr "" 0, collectedBefore_reviewComments] at h
  by_cases hempty : pr.reviews.items.flatMap Review.entries = []
  · refine ⟨fun review hreview => ?_, fun hne => absurd hempty hne⟩
    have hnone := List.flatMap_eq_nil_iff.mp hempty review hreview
    have hcomments : review.comments = [] :=
      List.map_eq_nil_iff.mp (List.append_eq_nil_iff.mp hnone).2
    rw [hcomments]
    exact Nat.zero_le 50
  · have hanswers : (pr.reviews.items.flatMap fun review => review.inAnswer.entries) ≠ [] := by
      intro hnil
      rw [hnil, List.flatten_replicate_nil] at h
      exact hempty h.symm.eq_nil
    have hpasses : 0 < pr.reviewPasses :=
      Nat.div_pos (Nat.le_of_dvd pr.rounds_pos pr.reviews_dvd) pr.reviews.length_pos
    have hone : pr.reviewPasses = 1 :=
      Nat.le_antisymm (le_one_of_nodup (h.nodup_iff.mpr hnodup) hanswers) hpasses
    rw [hone, flatten_replicate_of (Or.inr rfl)] at h
    refine ⟨fun review hreview => ?_, fun _ => ?_⟩
    · exact length_le_of_entries
        (forall_length_eq entries_inAnswer_sublist h.length_eq review hreview)
    · rw [← Nat.div_mul_cancel pr.reviews_dvd]
      show _ = pr.reviewPasses * _
      rw [hone, Nat.one_mul]

end PullRequest

end OpenHands.PullRequests
