import CongestionObservatory.Persistence.Store

/-!
# `CongestionObservatory.Proofs.Persistence.Crash`: a crash during a save

`Loads` says which snapshot a load returns. It is the content of the primary, or of the fallback
when the primary is absent or rejected (`loads_iff`). `CrashSafe` says that a load after any
crash of a save returns that snapshot again or the new one.

A save rotates the primary into the fallback without looking at it. When the primary is good this
is right: the old snapshot is in the primary until the fallback holds its copy, and then in the
fallback. When the primary is a rejected file, the rotation destroys the good fallback, and a
crash after that leaves nothing to load. `crash_safe_iff` is the exact condition, and
`rejected_primary_loses_fallback` is such a state.

`save_files` connects the steps with `save`: without faults, they lead to the files it leaves.
-/

set_option autoImplicit false

namespace CongestionObservatory.SnapshotStore

variable {s : SnapshotStore} {policy : ClassificationPolicy}

/-- The file holds a snapshot that a load accepts. -/
def Usable (s : SnapshotStore) (policy : ClassificationPolicy) (file : Option Text)
    (content : SnapshotContent) : Prop :=
  ∃ bytes, file = some bytes ∧ bytes.length ≤ s.limits.maxSnapshotBytes ∧
    decodeSnapshot bytes s.limits policy = .ok content

/-- A load finds a usable snapshot and returns its content. -/
def Loads (s : SnapshotStore) (policy : ClassificationPolicy) (files : SnapshotFiles)
    (content : SnapshotContent) : Prop :=
  (s.load policy files).outcome ≠ .loadedNothing ∧ (s.load policy files).content = content

/-- The snapshot a load makes of the content being saved. -/
def NewSnapshot (s : SnapshotStore) (policy : ClassificationPolicy)
    (content new : SnapshotContent) : Prop :=
  ∃ bytes, encodeSnapshot content s.limits = .ok bytes ∧
    decodeSnapshot bytes s.limits policy = .ok new

/-- Whatever a crash of the save leaves, a load returns the old snapshot or the new one. -/
def CrashSafe (s : SnapshotStore) (policy : ClassificationPolicy) (content : SnapshotContent)
    (files : SnapshotFiles) (old : SnapshotContent) : Prop :=
  ∀ files', Crash files (s.saveSteps content files) files' →
    ∃ loaded, Loads s policy files' loaded ∧
      (loaded = old ∨ NewSnapshot s policy content loaded)

theorem tryFile_eq_ok_iff {name : String} {file : Option Text} {path : Text}
    {content : SnapshotContent} :
    s.tryFile policy name file path = .ok content ↔ Usable s policy file content := by
  unfold tryFile Usable
  cases file with
  | none => simp
  | some bytes =>
      simp only [readFile, Option.some.injEq]
      -- The size is checked before anything is decoded.
      by_cases hlarge : bytes.length > s.limits.maxSnapshotBytes
      · rw [if_pos hlarge]
        constructor
        · intro h
          cases h
        · rintro ⟨bytes', rfl, hle, -⟩
          omega
      · rw [if_neg hlarge]
        simp only
        constructor
        · intro h
          refine ⟨bytes, rfl, by omega, ?_⟩
          cases hdecode : decodeSnapshot bytes s.limits policy with
          | error e =>
              rw [hdecode] at h
              cases h
          | ok c =>
              rw [hdecode] at h
              cases h
              rfl
        · rintro ⟨bytes', rfl, -, hdecode⟩
          rw [hdecode]

theorem usable_unique {file : Option Text} {c c' : SnapshotContent} (h : Usable s policy file c)
    (h' : Usable s policy file c') : c = c' := by
  obtain ⟨bytes, rfl, -, hdecode⟩ := h
  obtain ⟨bytes', heq, -, hdecode'⟩ := h'
  cases heq
  rw [hdecode] at hdecode'
  exact Except.ok.inj hdecode'

/-- A load returns the primary, or the fallback when the primary is not usable. -/
theorem loads_iff {files : SnapshotFiles} {content : SnapshotContent} :
    Loads s policy files content ↔
      Usable s policy files.primary content ∨
        ((¬ ∃ c, Usable s policy files.primary c) ∧ Usable s policy files.fallback content) := by
  unfold Loads load
  cases hprimary : s.tryFile policy "primary" files.primary s.primaryPath with
  -- A usable primary settles it: the fallback is not looked at.
  | ok c =>
      have husable := tryFile_eq_ok_iff.mp hprimary
      constructor
      · rintro ⟨-, rfl⟩
        exact Or.inl husable
      · rintro (h | ⟨hnone, -⟩)
        · exact ⟨by simp, usable_unique husable h⟩
        · exact absurd ⟨c, husable⟩ hnone
  | error e =>
      have hnone : ¬ ∃ c, Usable s policy files.primary c := by
        rintro ⟨c, hc⟩
        rw [tryFile_eq_ok_iff.mpr hc] at hprimary
        cases hprimary
      -- The primary failed, for whatever reason, so the fallback decides.
      obtain ⟨note, integrity, version⟩ := e
      cases hfallback : s.tryFile policy "fallback" files.fallback s.fallbackPath with
      | ok c =>
          have husable := tryFile_eq_ok_iff.mp hfallback
          constructor
          · rintro ⟨-, rfl⟩
            exact Or.inr ⟨hnone, husable⟩
          · rintro (h | ⟨-, h⟩)
            · exact absurd ⟨_, h⟩ hnone
            · exact ⟨by simp, usable_unique husable h⟩
      | error e' =>
          constructor
          · rintro ⟨hsome, -⟩
            exact absurd rfl hsome
          · rintro (h | ⟨-, h⟩)
            · exact absurd ⟨_, h⟩ hnone
            · rw [tryFile_eq_ok_iff.mpr h] at hfallback
              cases hfallback

/-- A snapshot in the fallback is loaded, unless the primary holds another usable one. -/
theorem loads_of_fallback {files : SnapshotFiles} {old : SnapshotContent}
    (hfallback : Usable s policy files.fallback old) :
    ∃ loaded, Loads s policy files loaded ∧
      (loaded = old ∨ Usable s policy files.primary loaded) := by
  by_cases hprimary : ∃ c, Usable s policy files.primary c
  · obtain ⟨c, hc⟩ := hprimary
    exact ⟨c, loads_iff.mpr (Or.inl hc), Or.inr hc⟩
  · exact ⟨old, loads_iff.mpr (Or.inr ⟨hprimary, hfallback⟩), Or.inl rfl⟩

/-- The last three steps of a save, when the fallback holds the old snapshot and the primary
holds it too or is absent. -/
theorem crash_of_replacement {content old : SnapshotContent} {bytes : Text}
    {files files' : SnapshotFiles} (hencode : encodeSnapshot content s.limits = .ok bytes)
    (hfallback : Usable s policy files.fallback old)
    (hprimary : files.primary = none ∨ Usable s policy files.primary old)
    (hcrash : Crash files [.writeTemporary bytes, .removePrimary, .renameTemporary] files') :
    ∃ loaded, Loads s policy files' loaded ∧
      (loaded = old ∨ NewSnapshot s policy content loaded) := by
  have hkept : ∀ files₁ : SnapshotFiles, files₁.fallback = files.fallback →
      (files₁.primary = files.primary ∨ files₁.primary = none ∨ files₁.primary = some bytes) →
      ∃ loaded, Loads s policy files₁ loaded ∧
        (loaded = old ∨ NewSnapshot s policy content loaded) := by
    intro files₁ hf hp
    rw [← hf] at hfallback
    obtain ⟨loaded, hloads, heq | husable⟩ := loads_of_fallback hfallback
    · exact ⟨loaded, hloads, Or.inl heq⟩
    · refine ⟨loaded, hloads, ?_⟩
      rcases hp with hp | hp | hp
      · rw [hp] at husable
        rcases hprimary with hnone | hold
        · rw [hnone] at husable
          obtain ⟨_, hsome, -⟩ := husable
          cases hsome
        · exact Or.inl (usable_unique husable hold)
      · rw [hp] at husable
        obtain ⟨_, hsome, -⟩ := husable
        cases hsome
      · rw [hp] at husable
        obtain ⟨_, hsome, -, hdecode⟩ := husable
        cases hsome
        exact Or.inr ⟨bytes, hencode, hdecode⟩
  -- Only the rename changes the primary to something else than the old file or nothing.
  cases hcrash with
  | between => exact hkept _ rfl (Or.inl rfl)
  | torn h =>
      cases h
      exact hkept _ rfl (Or.inl rfl)
  | later h =>
      cases h with
      | between => exact hkept _ rfl (Or.inl rfl)
      | torn h => cases h
      | later h =>
          cases h with
          | between => exact hkept _ rfl (Or.inr (Or.inl rfl))
          | torn h => cases h
          | later h =>
              cases h with
              | between => exact hkept _ rfl (Or.inr (Or.inr rfl))

/-- Without faults, the files after a save are the files after its steps. -/
theorem save_files (s : SnapshotStore) (content : SnapshotContent) (files : SnapshotFiles) :
    (s.save {} content files).2 = (s.saveSteps content files).foldl FileStep.apply files := by
  unfold save saveSteps
  cases encodeSnapshot content s.limits with
  | error e => rfl
  | ok bytes =>
      simp only [Bool.false_eq_true, and_false, if_false]
      cases hfile : files.primary with
      | none => simp [retainPrevious, writeFileAtomic, rotationSteps, FileStep.apply, hfile]
      | some previous => simp [retainPrevious, writeFileAtomic, rotationSteps, FileStep.apply, hfile]

/-- The steps are those of `save`. It is crash safe for the snapshot a load returns exactly when the
content cannot be encoded, there is no primary, or the primary is a snapshot that the load
accepts. -/
theorem crash_safe_iff (s : SnapshotStore) (policy : ClassificationPolicy)
    (content : SnapshotContent) (files : SnapshotFiles) (old : SnapshotContent)
    (hloads : Loads s policy files old) :
    (s.save {} content files).2 = (s.saveSteps content files).foldl FileStep.apply files ∧
      (CrashSafe s policy content files old ↔
        (∀ bytes, encodeSnapshot content s.limits ≠ .ok bytes) ∨ files.primary = none ∨
          ∃ c, Usable s policy files.primary c) := by
  refine ⟨save_files s content files, ?_⟩
  unfold CrashSafe saveSteps
  cases hencode : encodeSnapshot content s.limits with
  | error e =>
      refine iff_of_true ?_ (Or.inl fun bytes h => by cases h)
      intro files' hcrash
      cases hcrash with
      | between => exact ⟨old, hloads, Or.inl rfl⟩
  | ok bytes =>
      cases hfile : files.primary with
      | none =>
          refine iff_of_true ?_ (Or.inr (Or.inl rfl))
          have hfallback : Usable s policy files.fallback old := by
            rcases loads_iff.mp hloads with h | ⟨-, h⟩
            · rw [hfile] at h
              obtain ⟨_, hsome, -⟩ := h
              cases hsome
            · exact h
          intro files' hcrash
          simp only [rotationSteps, hfile, Option.isSome_none, Bool.false_eq_true, if_false,
            List.nil_append] at hcrash
          exact crash_of_replacement hencode hfallback (Or.inl hfile) hcrash
      | some previous =>
          simp only [rotationSteps, hfile, Option.isSome_some, if_true]
          by_cases husable : ∃ c, Usable s policy (some previous) c
          · refine iff_of_true ?_ (Or.inr (Or.inr husable))
            have hprimary : Usable s policy files.primary old := by
              rcases loads_iff.mp hloads with h | ⟨hnone, -⟩
              · exact h
              · rw [hfile] at hnone
                exact absurd husable hnone
            -- As long as the primary is untouched, the load returns it whatever the fallback is.
            have huntouched : ∀ fallback, ∃ loaded,
                Loads s policy { files with fallback := fallback } loaded ∧
                  (loaded = old ∨ NewSnapshot s policy content loaded) := fun fallback =>
              ⟨old, loads_iff.mpr (Or.inl hprimary), Or.inl rfl⟩
            intro files' hcrash
            cases hcrash with
            | between => exact huntouched files.fallback
            | torn h => cases h
            | later h =>
                cases h with
                | between => exact huntouched none
                | torn h =>
                    cases h
                    exact huntouched _
                | later h =>
                    have hrotated : Crash { files with fallback := files.primary }
                        [.writeTemporary bytes, .removePrimary, .renameTemporary] files' := h
                    refine crash_of_replacement hencode ?_ (Or.inr ?_) hrotated
                    · exact hprimary
                    · exact hprimary
          · refine iff_of_false ?_ ?_
            · -- The rejected primary stays and the good fallback is gone.
              intro hsafe
              obtain ⟨loaded, hloaded, -⟩ := hsafe { files with fallback := none }
                (.later (.between _ _))
              rcases loads_iff.mp hloaded with h | ⟨-, h⟩
              · rw [show ({ files with fallback := none } : SnapshotFiles).primary
                  = some previous from hfile] at h
                exact husable ⟨_, h⟩
              · obtain ⟨_, hsome, -⟩ := h
                cases hsome
            · rintro (h | h | h)
              · exact h bytes rfl
              · cases h
              · exact husable h

/-- A content with nothing in it, under the default policy. -/
def emptyContent : SnapshotContent :=
  { metadata :=
    { policyVersion := ({} : ClassificationPolicy).version
      policyDigest := ({} : ClassificationPolicy).digest } }

/-- A store in the working directory, with the default limits. -/
def defaultStore : SnapshotStore := { directory := [], basename := ascii "state", limits := {} }

/-- The snapshot of the empty content. -/
def emptySnapshot : Text := (encodeSnapshot emptyContent {}).toOption.getD []

/-- With a good primary, a save of the empty content is crash safe. -/
theorem crash_safe_good_primary :
    CrashSafe defaultStore {} emptyContent { primary := some emptySnapshot }
      (defaultStore.load {} { primary := some emptySnapshot }).content := by
  refine (crash_safe_iff defaultStore {} emptyContent { primary := some emptySnapshot } _ ?_).2.mpr
    (Or.inr (Or.inr ⟨(defaultStore.load {} { primary := some emptySnapshot }).content, ?_⟩))
  · exact ⟨by decide +kernel, rfl⟩
  · exact ⟨emptySnapshot, rfl, by decide +kernel, by decide +kernel⟩

/-- The primary is an empty file, the fallback is a good snapshot. -/
def rejectedPrimary : SnapshotFiles := { primary := some [], fallback := some emptySnapshot }

/-- A load returns the fallback, but a crash right after the fallback was removed leaves nothing
to load. -/
theorem rejected_primary_loses_fallback :
    Loads defaultStore {} rejectedPrimary (defaultStore.load {} rejectedPrimary).content ∧
      ¬ CrashSafe defaultStore {} emptyContent rejectedPrimary
        (defaultStore.load {} rejectedPrimary).content := by
  refine ⟨⟨by decide +kernel, rfl⟩, fun hsafe => ?_⟩
  have hsteps : defaultStore.saveSteps emptyContent rejectedPrimary
      = .removeFallback :: (defaultStore.saveSteps emptyContent rejectedPrimary).tail := by
    have hencode : encodeSnapshot emptyContent defaultStore.limits = .ok emptySnapshot := by
      decide +kernel
    unfold saveSteps
    rw [hencode]
    rfl
  have hcrash : Crash rejectedPrimary (defaultStore.saveSteps emptyContent rejectedPrimary)
      { rejectedPrimary with fallback := none } := by
    rw [hsteps]
    exact .later (.between _ _)
  obtain ⟨loaded, ⟨hsome, -⟩, -⟩ := hsafe _ hcrash
  exact hsome (by decide +kernel)

end CongestionObservatory.SnapshotStore
