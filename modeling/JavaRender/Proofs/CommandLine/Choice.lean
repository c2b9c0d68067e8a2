import JavaRender.CommandLine.Request
import JavaRender.Settings.Newline

/-!
The newline style of a build command. A word that enters a value for it is checked on the spot, and
no other word touches it; main statement: the style that a command line asks for is the name of one.
-/
namespace JavaRender.CommandLine

def Chosen (r : BuildRequest) : Prop := ∀ v, r.newline = some (.value v) → v ∈ newlineNames

variable {r r' : BuildRequest}

theorem ok_of_bind {ε α β : Type} {x : Except ε α} {f : α → Except ε β} {b : β}
    (h : (x >>= f) = .ok b) : ∃ a, x = .ok a ∧ f a = .ok b := by
  cases x with
  | error e => cases h
  | ok a => exact ⟨a, rfl, h⟩

/-- Only the newline flag changes the style, to a choice or to nothing. -/
theorem chosen_take {flag : Flag} {value : Option String} (hr : Chosen r)
    (h : r.take flag value = .ok r') : Chosen r' := by
  cases flag with
  | help => cases h
  | verbose | out | config =>
    cases h
    exact hr
  | newline =>
    rw [BuildRequest.take] at h
    cases hgiven : Given.ofText (value.getD "") with
    | value v =>
      rw [hgiven] at h
      dsimp only [Given.value?] at h
      split at h
      · cases h
        rintro _ ⟨⟩
        exact List.contains_iff_mem.mp ‹_›
      · cases h
    | nothing =>
      rw [hgiven] at h
      cases h
      rintro v ⟨⟩

theorem chosen_takeAll {given : List (Flag × Option String)} (hr : Chosen r)
    (h : r.takeAll given = .ok r') : Chosen r' := by
  induction given generalizing r with
  | nil =>
    cases h
    exact hr
  | cons first rest ih =>
    obtain ⟨next, htake, hrest⟩ := ok_of_bind h
    exact ih (chosen_take hr htake) hrest

theorem chosen_option {reading after : Reading} {s : String} {found : Match}
    (hr : Chosen reading.request) (h : reading.option s found = .ok after) :
    Chosen after.request := by
  obtain ⟨c, -, hentered⟩ := ok_of_bind h
  dsimp only at hentered
  split at hentered
  · cases hentered
    exact hr
  · obtain ⟨request, htake, hafter⟩ := ok_of_bind hentered
    cases hafter
    exact chosen_takeAll hr htake

/-- No word of a build command leaves a style that is no choice. -/
theorem chosen_word {reading after : Reading} {w : Word} (hr : Chosen reading.request)
    (h : reading.word w = .ok after) : Chosen after.request := by
  unfold Reading.word at h
  split at h
  · obtain ⟨request, htake, hafter⟩ := ok_of_bind h
    cases hafter
    exact chosen_takeAll hr htake
  · cases h
  · exact chosen_option hr h
  · split at h <;> cases h <;> exact hr
  · split at h <;> cases h <;> exact hr

theorem chosen_words {words : List Word} {reading after : Reading} (hr : Chosen reading.request)
    (h : words.foldlM Reading.word reading = .ok after) : Chosen after.request := by
  induction words generalizing reading with
  | nil =>
    cases h
    exact hr
  | cons w rest ih =>
    rw [List.foldlM_cons] at h
    obtain ⟨next, hword, hrest⟩ := ok_of_bind h
    exact ih (chosen_word hr hword) hrest

theorem chosen_readBuild {words : List Word} {extras : List String}
    (h : readBuild words = .ok (r, extras)) : Chosen r := by
  obtain ⟨reading, hwords, hend⟩ := ok_of_bind h
  have hr : Chosen reading.request := chosen_words (by rintro v ⟨⟩) hwords
  split at hend
  · cases hend
  · cases hend
    exact hr

theorem chosen_readCommand {name : String} {args extras : List String}
    (h : readCommand name args = .ok (.build r, extras)) : Chosen r := by
  unfold readCommand at h
  split at h
  · obtain ⟨words, -, hwords⟩ := ok_of_bind h
    obtain ⟨result, hbuild, hresult⟩ := ok_of_bind hwords
    cases hresult
    exact chosen_readBuild hbuild
  split at h
  · obtain ⟨words, -, hwords⟩ := ok_of_bind h
    obtain ⟨extras', -, hresult⟩ := ok_of_bind hwords
    cases hresult
  · cases h

theorem chosen_readMain {words : List Word} {extras : List String}
    (h : readMain words = .ok (.build r, extras)) : Chosen r := by
  induction words generalizing extras with
  | nil => cases h
  | cons w rest ih =>
    cases w with
    | option s found =>
      obtain ⟨cluster, -, hcluster⟩ := ok_of_bind h
      split at hcluster
      · obtain ⟨⟨request, others⟩, hrest, hresult⟩ := ok_of_bind hcluster
        cases hresult
        exact ih hrest
      · cases hcluster
    | plain s => exact chosen_readCommand h
    | dashes => cases rest <;> cases h

/-- A newline style that a command line asks for by a value is the name of one. -/
theorem newline_of_read {args : List String} {v : String} (h : read args = .ok (.build r))
    (hv : r.newline = some (.value v)) : ∃ n, Newline.ofName? v = some n := by
  obtain ⟨words, -, hwords⟩ := ok_of_bind h
  obtain ⟨⟨request, extras⟩, hmain, hresult⟩ := ok_of_bind hwords
  dsimp only at hresult
  split at hresult
  · cases hresult
    have hchoice : v ∈ newlineNames := chosen_readMain hmain v hv
    have hnamed : ∀ name ∈ newlineNames, (Newline.ofName? name).isSome = true := by decide
    exact Option.isSome_iff_exists.mp (hnamed v hchoice)
  · cases hresult

end JavaRender.CommandLine
