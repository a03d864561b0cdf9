import Rebind.Proofs.Json.FormLocality
import Rebind.Proofs.Json.Position
import Rebind.Proofs.Options.Reader

/-!
# The first problem of a text is the one that is reported

A text of options is read from its front to its end, so whoever is told of a
fault at some place may rely on the text before it: there is nothing wrong in
it, and nothing behind the place will change what has been found there. The
readers of the three records look no further ahead than their point. What is
added here is what comes between reading the settings and looking for the end
of the text, which depends on the settings only, and the way from the place of a
fault to its line and column.
-/

namespace Rebind

open Json

/-! ## The three records -/

theorem localAt_target (c : Cursor) : targetRecord.reader.LocalAt c :=
  Record.localAt_reader (targetSlots.localFields fun _ => Reader.localAt_string) c

theorem localAt_definition (c : Cursor) : definitionRecord.reader.LocalAt c := by
  refine Record.localAt_reader (definitionSlots.localFields fun i => ?_) c
  cases i with
  | original => exact Reader.localAt_string
  | target => exact localAt_target

theorem localAt_draft (c : Cursor) : draftRecord.reader.LocalAt c := by
  refine Record.localAt_reader (draftSlots.localFields fun i => ?_) c
  cases i with
  | replacements => exact Reader.localAt_list localAt_definition
  | decorators => exact Reader.localAt_list Reader.localAt_string
  | bindKey | implementKey => exact Reader.localAt_string
  | dedupeImports => exact Reader.localAt_boolean

namespace Options

variable {text text' : String} {n : Nat}

/-! ## The fault of a text -/

/-- The fault that the reading of a text ends with. It is in the settings, or the settings are sound
and it is behind them. -/
inductive Faults (text : String) (f : Fault) : Prop where
  | settings (hrun : draftRecord.reader.run (.start text) = .error f)
  | behind (d : Draft) (c : Cursor) (hrun : draftRecord.reader.run (.start text) = .ok (d, c))
      (hsound : d.problem? = none) (hfinish : Reader.finish.run c = .error f)

theorem faults_of_malformed {cause : Cause} {p : Position}
    (h : (read text).result = .error (.malformed cause p)) :
    ∃ f, Faults text f ∧ f.cause = cause ∧ Position.ofOffset text f.offset = p := by
  unfold read at h
  split at h
  · next f hrun =>
      obtain ⟨hcause, hposition⟩ := Rejection.malformed.inj (Except.error.inj h)
      exact ⟨f, .settings hrun, hcause, hposition⟩
  · next d c hrun =>
      split at h
      · exact Rejection.noConfusion (Except.error.inj h)
      · next hsound =>
          dsimp only at h
          split at h
          · next f hfinish =>
              obtain ⟨hcause, hposition⟩ := Rejection.malformed.inj (Except.error.inj h)
              exact ⟨f, .behind d c hrun hsound hfinish, hcause, hposition⟩
          · cases h

variable {f : Fault}

theorem Faults.inside (h : Faults text f) :
    f.offset ≤ text.utf8ByteSize ∧ (f.cause.endsText = true → f.offset = text.utf8ByteSize) := by
  have hdraft := (localAt_draft (.start text)).inside
  rw [Cursor.limit_start] at hdraft
  cases h with
  | settings hrun =>
      rw [hrun] at hdraft
      exact hdraft
  | behind d c hrun _ hfinish =>
      rw [hrun] at hdraft
      have hlimit : c.limit = text.utf8ByteSize := hdraft
      have hrest := (Reader.localAt_finish c).inside
      rw [hfinish, hlimit] at hrest
      exact hrest

theorem Faults.read_eq (h : Faults text f) (hlt : f.offset < n)
    (htake : text'.toUTF8.data.toList.take n = text.toUTF8.data.toList.take n) :
    read text' = read text := by
  have hposition := Position.ofOffset_of_take (Nat.le_of_lt hlt) htake
  have hrepeats := (localAt_draft (.start text)).repeats n _ (Cursor.agree_start htake)
  cases h with
  | settings hrun =>
      rw [hrun] at hrepeats
      have hrun' : draftRecord.reader.run (.start text') = .error f := hrepeats hlt
      simp only [read, hrun, hrun', Rejection.ofFault, hposition]
  | behind d c hrun hsound hfinish =>
      have hfinishes := Reader.localAt_finish c
      rw [hrun] at hrepeats
      -- the settings end before the fault that is behind them
      have hle : c.offset ≤ f.offset := by
        have := hfinishes.le_place
        rwa [hfinish] at this
      obtain ⟨c', hrun', hagree⟩ := hrepeats (Nat.lt_of_le_of_lt hle hlt)
      have hfinish' : Reader.finish.run c' = .error f := by
        have := hfinishes.repeats n c' hagree
        rw [hfinish] at this
        exact this hlt
      simp only [read, hrun, hrun', hsound, hfinish, hfinish', Rejection.ofFault, hposition]

/-- The line and column of a fault denote one place of the text, which is its end if the text ends
too early. If it is not the end, the text up to there and one byte more settle all that comes of
it: what is wrong, where it is said to be, and which definitions are reported on the way. Nothing
that is written behind it changes any of this. -/
theorem malformed_settled_by_prefix (text : String) (cause : Cause) (p : Position)
    (h : (read text).result = .error (.malformed cause p)) :
    ∃ n, (∀ m, p.Denotes text m ↔ m = n) ∧
      (cause.endsText = true → n = text.utf8ByteSize) ∧
      (n < text.utf8ByteSize → ∀ text' : String,
        text'.toUTF8.data.toList.take (n + 1) = text.toUTF8.data.toList.take (n + 1) →
        read text' = read text) := by
  obtain ⟨f, hfaults, rfl, rfl⟩ := faults_of_malformed h
  obtain ⟨hle, hends⟩ := hfaults.inside
  exact ⟨f.offset, fun _ => Position.denotes_ofOffset_iff hle, hends, fun _ text' htake =>
    hfaults.read_eq (Nat.lt_succ_self f.offset) htake⟩

/-- Whether a text is rejected for a given reason can be tested, though not whether two options are
the same. -/
instance decidableEqError {ε α : Type} [DecidableEq ε] (result : Except ε α) (e : ε) :
    Decidable (result = .error e) :=
  match result with
  | .ok _ => isFalse nofun
  | .error e' => decidable_of_iff (e' = e) ⟨congrArg Except.error, Except.error.inj⟩

/-- A setting that is not known is reported as soon as the colon behind it has been seen, whether
a value follows or not. -/
theorem malformed_settled_by_prefix_of_unknown_setting :
    let text := "\x7b\"replacements\":[[\"A\",[\"B\",\"b\"]]],\n\"mode\":[1\x7d"
    (read text).result = .error (.malformed
        (.unknownField "mode" ["replacements", "decorators", "bindKey", "implementKey",
          "dedupeImports"]) ⟨2, 6⟩) ∧
      ∀ text' : String, text'.toUTF8.data.toList.take 42 = text.toUTF8.data.toList.take 42 →
        read text' = read text := by
  intro text
  have h : (read text).result = .error (.malformed
      (.unknownField "mode" ["replacements", "decorators", "bindKey", "implementKey",
        "dedupeImports"]) ⟨2, 6⟩) := by decide +kernel
  obtain ⟨n, hdenotes, -, hsettled⟩ := malformed_settled_by_prefix text _ _ h
  have hplace : Position.Denotes ⟨2, 6⟩ text 41 := ⟨by decide +kernel, by decide +kernel⟩
  obtain rfl : 41 = n := (hdenotes 41).mp hplace
  exact ⟨h, hsettled (by decide +kernel)⟩

end Options

end Rebind
