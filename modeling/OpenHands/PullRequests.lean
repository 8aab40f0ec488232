/-
# Collecting a pull request

`GitHubDataCollector.save_full_pr` (enterprise/integrations/github/data_collector.py) asks the
GraphQL API for a pull request again and again, each time for one page of its commits, one of its
comments and one of its reviews, until none of the three lists has a next page.  What it has
collected is counted and stored.

The API is any function of the variables of the query.  The loop takes fuel; the names and logins
that are compared with `openhands` have none of the letters whose lower case differs between
ASCII and Unicode.
-/
import Mathlib
import OpenHands.Event
import OpenHands.Lib.PyStr

namespace OpenHands.PullRequests

open PyStr

/-! ## Answers of the API -/

/-- A user, by its `login`. -/
structure Actor where
  login : String
  deriving DecidableEq, Repr

/-- The `author` of a commit; a git author need not be a user. -/
structure GitActor where
  name : Option String
  email : Option String
  user : Option Actor
  deriving DecidableEq, Repr

structure Commit where
  oid : String
  message : String
  committedDate : String
  author : Option GitActor
  additions : ℕ
  deletions : ℕ
  changedFiles : Option ℕ
  deriving DecidableEq, Repr

/-- A comment; its author is null when the account has been deleted. -/
structure Comment where
  author : Option Actor
  body : String
  createdAt : String
  deriving DecidableEq, Repr

structure Review where
  author : Option Actor
  body : String
  state : String
  createdAt : String
  comments : List Comment
  deriving DecidableEq, Repr

/-- `pageInfo`. -/
structure PageInfo where
  hasNextPage : Bool
  endCursor : Option String
  deriving DecidableEq, Repr

/-- A page of a list. -/
structure Connection (α : Type) where
  nodes : List α
  pageInfo : PageInfo

/-- `pullRequest`. -/
structure PrData where
  number : ℤ
  title : String
  body : String
  author : Option Actor
  merged : Bool
  mergedBy : Option Actor
  state : String
  mergeCommit : Option String
  commits : Connection Commit
  comments : Connection Comment
  reviews : Connection Review

/-- `node`, a repository. -/
structure RepoData where
  name : String
  owner : Actor
  languages : List String
  pullRequest : Option PrData

/-- `variables`. -/
structure Variables where
  nodeId : String
  prNumber : ℤ
  commitsAfter : Option String
  commentsAfter : Option String
  reviewsAfter : Option String
  deriving DecidableEq, Repr

/-! ## What is collected -/

/-- `commit_data`. -/
structure CommitData where
  sha : String
  message : String
  committedDate : String
  authorName : Option String
  authorEmail : Option String
  githubLogin : String
  additions : ℕ
  deletions : ℕ
  changedFiles : Option ℕ
  deriving DecidableEq, Repr

/-- The `type` of a comment. -/
inductive CommentType
  | prComment
  | review
  | reviewComment
  deriving DecidableEq, Repr

/-- `comment_data`, `review_data` (with its `state`) and `review_comment_data`. -/
structure CommentData where
  author : String
  body : String
  createdAt : String
  state : Option String := none
  type : CommentType
  deriving DecidableEq, Repr

/-- `x.get(...)` where `x` may be null. -/
def notNull {α : Type} : Option α → Except PyError α
  | some a => .ok a
  | none => .error .attributeError

/-- `commit_data` of a commit. -/
def commitData (commit : Commit) : Except PyError CommitData := do
  let authorInfo ← notNull commit.author
  let user ← notNull authorInfo.user
  return {
    sha := commit.oid
    message := commit.message
    committedDate := commit.committedDate
    authorName := authorInfo.name
    authorEmail := authorInfo.email
    githubLogin := user.login
    additions := commit.additions
    deletions := commit.deletions
    changedFiles := commit.changedFiles }

/-- The data of a comment. -/
def commentData (type : CommentType) (comment : Comment) : Except PyError CommentData := do
  let author ← notNull comment.author
  return { author := author.login, body := comment.body, createdAt := comment.createdAt, type }

/-- `review_data`: only a review with a body has some. -/
def reviewData (review : Review) : Except PyError (List CommentData) :=
  if isBlank review.body then return []
  else do
    let author ← notNull review.author
    return [{
      author := author.login
      body := review.body
      createdAt := review.createdAt
      state := some review.state
      type := .review }]

/-- `_process_commits_page`. -/
def processCommitsPage (prData : PrData) (commits : List CommitData) :
    Except PyError (List CommitData) := do
  let page ← prData.commits.nodes.mapM commitData
  return commits ++ page

/-- `_process_pr_comments_page`. -/
def processPrCommentsPage (prData : PrData) (prComments : List CommentData) :
    Except PyError (List CommentData) := do
  let page ← prData.comments.nodes.mapM (commentData .prComment)
  return prComments ++ page

/-- The review and its comments. -/
def reviewEntries (review : Review) : Except PyError (List CommentData) := do
  let itself ← reviewData review
  let comments ← review.comments.mapM (commentData .reviewComment)
  return itself ++ comments

/-- `_process_review_comments_page`. -/
def processReviewCommentsPage (prData : PrData) (reviewComments : List CommentData) :
    Except PyError (List CommentData) := do
  let page ← prData.reviews.nodes.mapM reviewEntries
  return reviewComments ++ page.flatten

/-! ## Counting -/

/-- `s.lower()`, as far as it tells texts with the letters of `openhands` apart. -/
def lower (s : String) : String := String.ofList (s.toList.map Char.toLower)

/-- `_check_openhands_author`. -/
def checkOpenhandsAuthor (name login : String) : Bool :=
  name = "openhands" || login = "openhands" || login = "openhands-agent" ||
    login = "openhands-ai" || login = "openhands-staging" || login = "openhands-exp" ||
    (login ≠ "" && "openhands".toList <:+: (lower login).toList)

/-- A commit by OpenHands; the name of its author may be null. -/
def isOpenhandsCommit (commit : CommitData) : Except PyError Bool := do
  let authorName ← notNull commit.authorName
  return checkOpenhandsAuthor (lower authorName) (lower commit.githubLogin)

/-- A comment by OpenHands. -/
def isOpenhandsComment (comment : CommentData) : Bool :=
  checkOpenhandsAuthor "" (lower comment.author)

/-- The OpenHands commits, review comments and general comments. -/
structure OpenhandsStats where
  numCommits : ℕ
  numReviewComments : ℕ
  numGeneralComments : ℕ
  deriving DecidableEq, Repr

/-- `helped_author`. -/
def OpenhandsStats.helpedAuthor (stats : OpenhandsStats) : Bool := stats.numCommits > 0

/-- `_count_openhands_activity`. -/
def countOpenhandsActivity (commits : List CommitData) (reviewComments prComments :
    List CommentData) : Except PyError OpenhandsStats := do
  let byOpenhands ← commits.mapM isOpenhandsCommit
  return {
    numCommits := byOpenhands.count true
    numReviewComments := reviewComments.countP isOpenhandsComment
    numGeneralComments := prComments.countP isOpenhandsComment }

/-! ## Storing -/

/-- `repo_metadata`. -/
structure RepoMetadata where
  name : String
  owner : String
  languages : List String
  deriving DecidableEq, Repr

/-- `_extract_repo_metadata`. -/
def extractRepoMetadata (repoData : RepoData) : RepoMetadata :=
  ⟨repoData.name, repoData.owner.login, repoData.languages⟩

/-- The file of a pull request. -/
structure FullPr where
  repoMetadata : RepoMetadata
  username : Option String
  number : ℤ
  title : String
  body : String
  comments : List CommentData
  commits : List CommitData
  reviewComments : List CommentData
  merged : Bool
  mergedBy : Option String
  state : String
  mergeCommitSha : Option String
  openhandsStats : OpenhandsStats
  deriving DecidableEq, Repr

/-- `_build_final_data_structure`. -/
def buildFinalDataStructure (repoData : RepoData) (prData : PrData) (commits : List CommitData)
    (prComments reviewComments : List CommentData) (stats : OpenhandsStats) : FullPr where
  repoMetadata := extractRepoMetadata repoData
  username := prData.author.map Actor.login
  number := prData.number
  title := prData.title
  body := prData.body
  comments := prComments
  commits := commits
  reviewComments := reviewComments
  merged := prData.merged
  mergedBy := if prData.merged then prData.mergedBy.map Actor.login else none
  state := prData.state
  mergeCommitSha := if prData.merged then prData.mergeCommit else none
  openhandsStats := stats

/-- `OpenhandsPR`. -/
structure OpenhandsPr where
  repoId : String
  repoName : String
  prNumber : ℤ
  installationId : Option String
  updatedAt : ℤ
  processed : Bool := false
  openhandsHelpedAuthor : Option Bool := none
  openhandsStats : Option OpenhandsStats := none
  deriving DecidableEq, Repr

/-- `OpenhandsPR.repo_id == repo_id, OpenhandsPR.pr_number == pr_number`. -/
def OpenhandsPr.isRow (repoId : String) (prNumber : ℤ) (row : OpenhandsPr) : Bool :=
  row.repoId = repoId && row.prNumber = prNumber

/-- `OpenhandsPRStore.update_pr_openhands_stats`: the first row of the pull request is changed,
unless it has been updated meanwhile. -/
def updatePrOpenhandsStats (repoId : String) (prNumber originalUpdatedAt : ℤ)
    (stats : OpenhandsStats) : List OpenhandsPr → List OpenhandsPr × Bool
  | [] => ([], false)
  | row :: rows =>
    if row.isRow repoId prNumber then
      if row.updatedAt ≠ originalUpdatedAt then (row :: rows, false)
      else
        ({ row with
            openhandsHelpedAuthor := some stats.helpedAuthor
            openhandsStats := some stats
            processed := true } :: rows, true)
    else
      let (rows, updateSuccess) :=
        updatePrOpenhandsStats repoId prNumber originalUpdatedAt stats rows
      (row :: rows, updateSuccess)

/-- The table of pull requests and the files. -/
structure Stored where
  prs : List OpenhandsPr
  files : String → Option FullPr

/-- `full_saved_pr_path`. -/
def fullSavedPrPath (repoId : String) (prNumber : ℤ) : String :=
  s!"prs/github/{repoId}-{prNumber}/data.json"

/-! ## The loop -/

/-- The variables of the loop. -/
structure Collected where
  commits : List CommitData := []
  prComments : List CommentData := []
  reviewComments : List CommentData := []
  data : Option (RepoData × PrData) := none
  commitsAfter : Option String := none
  commentsAfter : Option String := none
  reviewsAfter : Option String := none

/-- The cursor to go on with; without a next page it is the one that was there at first. -/
def nextCursor {α : Type} (page : Connection α) : Option String :=
  if page.pageInfo.hasNextPage then page.pageInfo.endCursor else none

/-- What a round adds. -/
def Collected.addPage (collected : Collected) (repoData : RepoData) (prData : PrData) :
    Except PyError Collected := do
  let commits ← processCommitsPage prData collected.commits
  let prComments ← processPrCommentsPage prData collected.prComments
  let reviewComments ← processReviewCommentsPage prData collected.reviewComments
  return {
    commits
    prComments
    reviewComments
    data := some (repoData, prData)
    commitsAfter := nextCursor prData.commits
    commentsAfter := nextCursor prData.comments
    reviewsAfter := nextCursor prData.reviews }

/-- `has_more_commits or has_more_comments or has_more_reviews`. -/
def hasMore (prData : PrData) : Bool :=
  prData.commits.pageInfo.hasNextPage || prData.comments.pageInfo.hasNextPage ||
    prData.reviews.pageInfo.hasNextPage

variable (executeGraphqlQuery : Variables → Except PyError RepoData)

/-- The loop; whatever is raised ends it, as an error. -/
def fetchPages (nodeId : String) (prNumber : ℤ) :
    ℕ → Collected → Option (Except PyError Collected)
  | 0, _ => none
  | fuel + 1, collected =>
    match executeGraphqlQuery {
        nodeId
        prNumber
        commitsAfter := collected.commitsAfter
        commentsAfter := collected.commentsAfter
        reviewsAfter := collected.reviewsAfter } with
    | .error e => some (.error e)
    | .ok repoData =>
      match repoData.pullRequest with
      | none => some (.ok collected)
      | some prData =>
        match collected.addPage repoData prData with
        | .error e => some (.error e)
        | .ok collected =>
          if hasMore prData then fetchPages nodeId prNumber fuel collected
          else some (.ok collected)

/-- The end of `save_full_pr`: what has been collected is counted and stored. -/
def storeCollected (openhandsPr : OpenhandsPr) (collected : Collected) (stored : Stored) :
    Except PyError Stored :=
  match collected.data with
  | none => return stored
  | some (repoData, prData) => do
    let stats ← countOpenhandsActivity collected.commits collected.reviewComments
      collected.prComments
    let data := buildFinalDataStructure repoData prData collected.commits collected.prComments
      collected.reviewComments stats
    let (prs, _) := updatePrOpenhandsStats openhandsPr.repoId openhandsPr.prNumber
      openhandsPr.updatedAt stats stored.prs
    let path := fullSavedPrPath openhandsPr.repoId openhandsPr.prNumber
    return { prs, files := fun p => if p = path then some data else stored.files p }

/-- `save_full_pr`, with the token of the installation, the client that is made with it and the
node id of the repository.  Without a token, or if the loop is ended by an exception, nothing is
stored. -/
def saveFullPr (installationToken : Except PyError String)
    (ghClient : String → Variables → Except PyError RepoData) (nodeId : String)
    (openhandsPr : OpenhandsPr) (stored : Stored) (fuel : ℕ) : Option (Except PyError Stored) :=
  match installationToken with
  | .error _ => some (.ok stored)
  | .ok token =>
    (fetchPages (ghClient token) nodeId openhandsPr.prNumber fuel {}).map fun result =>
      match result with
      | .error _ => .ok stored
      | .ok collected => storeCollected openhandsPr collected stored

end OpenHands.PullRequests
