import MarketMonitor.Persistence.Schema

/-!
# The artifact store

Immutable files addressed by the SHA-256 of their content, registered in
`artifact_object`.
-/

namespace MarketMonitor

/-- `ArtifactStore.path_for(digest)`, relative to the root of the store. -/
def pathFor (digest : String) : Except Exn String :=
  if Sha256.IsDigest digest then
    let d := digest.toList
    .ok (String.ofList (d.take 2 ++ '/' :: (d.drop 2).take 2 ++ '/' :: d))
  else
    .error ⟨.artifactPathError, "artifact digest must be 64 lowercase hexadecimal characters"⟩

/-- `ArtifactStore.open_verified(digest)` : the content of the file, when it has the hash. -/
def openVerified (files : ArtifactFiles) (digest : String) : Except Exn (List UInt8) := do
  let _ ← pathFor digest
  match files digest with
  | none => .error ⟨.artifactNotFoundError, "artifact file is missing: " ++ digest⟩
  | some content =>
    if Sha256.hexdigest content ≠ digest then
      .error ⟨.artifactIntegrityError, "artifact hash mismatch: " ++ digest⟩
    else .ok content

/-- What `open_verified` reads has the digest it was opened by. -/
theorem openVerified_eq_ok {files : ArtifactFiles} {digest : String} {content : List UInt8} :
    openVerified files digest = .ok content ↔
      files digest = some content ∧ Sha256.hexdigest content = digest := by
  unfold openVerified
  constructor
  · intro h
    cases hpath : pathFor digest with
    | error e =>
      rw [hpath] at h
      cases h
    | ok path =>
      cases hfile : files digest with
      | none =>
        rw [hpath, hfile] at h
        cases h
      | some found =>
        rw [hpath, hfile] at h
        by_cases hhash : Sha256.hexdigest found = digest
        · simp [hhash, bind, Except.bind] at h
          exact ⟨congrArg some h, h ▸ hhash⟩
        · simp [hhash, bind, Except.bind] at h
  · rintro ⟨hfile, hhash⟩
    have hdigest : Sha256.IsDigest digest := hhash ▸ Sha256.hexdigest_isDigest content
    simp [pathFor, hdigest, hfile, hhash, bind, Except.bind]

end MarketMonitor
