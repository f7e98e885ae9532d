import RelyLoop.Text.Captures
import RelyLoop.Python.Text

/-!
# The names of a registered repository

A config repo is registered under a URL, and a webhook names its repository by `owner/repo`.
Each side has a grammar of its own. This file compares them: what the webhook's parser makes
of the name of an accepted URL, and which registered row is found for it.
-/

namespace RelyLoop.ConfigRepos

open RelyLoop.Python RelyLoop.Text

/-! ## The two parsers -/

/-- `[a-zA-Z0-9._-]`. -/
def isNameChar (c : Char) : Bool := c.isAlphanum || c == '.' || c == '_' || c == '-'

/-- `[a-z0-9]`. -/
def isLowerAlnum (c : Char) : Bool := c.isLower || c.isDigit

/-- `[a-z0-9-]`. -/
def isHandleChar (c : Char) : Bool := isLowerAlnum c || c == '-'

/-- `[a-z0-9._-]`. -/
def isLowerNameChar (c : Char) : Bool := isLowerAlnum c || c == '.' || c == '_' || c == '-'

/-- `.git`. -/
def dotGit : List Char := ".git".toList

/-- `_GITHUB_URL_PATTERN`. -/
def githubUrlPattern : Captures := .chain
  [.lit "https://github.com/".toList, .group 1 (.plus isNameChar), .one (· == '/'),
    .group 2 (.lazyPlus isNameChar), .opt (.lit dotGit), .finish]

/-- `_FULL_NAME_PATTERN`. -/
def fullNamePattern : Captures := .chain
  [.group 1 (.seq (.one isLowerAlnum)
      (.opt (.seq (.star isHandleChar) (.one isLowerAlnum)))),
    .one (· == '/'), .group 2 (.plus isLowerNameChar), .finish]

/-- `UnsupportedProviderError`. -/
structure UnsupportedProviderError where
  repoUrl : List Char
  deriving DecidableEq

/-- The text of the error, with `repr` for `!r`. -/
def UnsupportedProviderError.message (repr : List Char → String)
    (error : UnsupportedProviderError) : String :=
  "repo_url " ++ repr error.repoUrl ++
    " is not a GitHub URL; GitLab + Bitbucket arrive at MVP3"

/-- `validate_repo_url`. -/
def validateRepoUrl (url : List Char) :
    Except UnsupportedProviderError (List Char × List Char) :=
  match githubUrlPattern.matchStart url with
  | none => .error ⟨url⟩
  | some found => .ok (found.group 1, found.group 2)

/-- The text without a `.git` at its end. -/
def stripDotGit (candidate : List Char) : List Char :=
  if dotGit.isSuffixOf candidate then candidate.take (candidate.length - dotGit.length)
  else candidate

/-- `parse_repository_full_name`. -/
def parseRepositoryFullName (table : CharacterTable) (value : List Char) :
    Option (List Char × List Char) :=
  if value.isEmpty then none
  else
    let candidate := table.lower (strip value)
    if isSubstring "://".toList candidate || isSubstring ":".toList candidate then none
    else
      match fullNamePattern.matchStart (stripDotGit candidate) with
      | none => none
      | some found =>
        let owner := found.group 1
        let repo := found.group 2
        if isSubstring ".".toList owner then none else some (owner, repo)

/-! ## The webhook's row -/

/-- What the webhook reads of a `config_repos` row. -/
structure ConfigRepo where
  repoUrl : List Char
  webhookSecretRef : Option String
  deriving DecidableEq

/-- The pairs that `lookup_config_repo_by_owner_repo` compares. -/
def needle (table : CharacterTable) (names : List Char × List Char) : List Char × List Char :=
  (table.lower names.1, table.lower names.2)

/-- Whether a row is registered for the repository. -/
def ConfigRepo.isFor (table : CharacterTable) (names : List Char × List Char)
    (row : ConfigRepo) : Bool :=
  match validateRepoUrl row.repoUrl with
  | .error _ => false
  | .ok parsed => needle table parsed == needle table names

/-- `lookup_config_repo_by_owner_repo`, on the rows as they are read. -/
def lookupConfigRepoByOwnerRepo (table : CharacterTable) (rows : List ConfigRepo)
    (names : List Char × List Char) : Option ConfigRepo :=
  rows.find? (·.isFor table names)

/-- The reason for which the webhook answers that the signature is invalid. -/
inductive Refusal where
  | unparseableRepository
  | unknownRepo
  deriving DecidableEq

/-- The row whose secret the webhook checks the signature against. -/
def webhookConfigRepo (table : CharacterTable) (rows : List ConfigRepo) (fullName : List Char) :
    Except Refusal ConfigRepo :=
  let ownerRepo := if fullName.isEmpty then none else parseRepositoryFullName table fullName
  match ownerRepo with
  | none => .error .unparseableRepository
  | some names =>
    match lookupConfigRepoByOwnerRepo table rows names with
    | none => .error .unknownRepo
    | some row =>
      if row.webhookSecretRef = none ∨ row.webhookSecretRef = some "" then .error .unknownRepo
      else .ok row

/-! ## Names and handles -/

/-- An owner or a repository as the URL pattern reads it. -/
def IsName (name : List Char) : Prop := name ≠ [] ∧ ∀ c ∈ name, isNameChar c = true

/-- Characters of a class and hyphens, with no hyphen at either end. -/
def IsHandleOver (alnum : Char → Bool) (owner : List Char) : Prop :=
  (∀ c ∈ owner, (alnum c || c == '-') = true) ∧
    (∃ c ∈ owner.head?, alnum c = true) ∧ ∃ c ∈ owner.getLast?, alnum c = true

/-- A GitHub handle: letters, digits and hyphens, with no hyphen at either end. -/
def IsHandle (owner : List Char) : Prop := IsHandleOver Char.isAlphanum owner

/-- The name that GitHub sends for a repository. -/
def fullName (owner repo : List Char) : List Char := owner ++ '/' :: repo

end RelyLoop.ConfigRepos
