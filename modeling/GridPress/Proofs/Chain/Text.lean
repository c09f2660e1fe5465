import GridPress.Proofs.Chain.Building
import GridPress.Proofs.Codec.Zstd
import GridPress.Proofs.Context

namespace GridPress.Chain

variable {spec s : String}

theorem mem_tokens_iff :
    s ∈ tokens spec ↔ ∃ piece ∈ Text.separate ',' spec.toList,
      (∃ ch ∈ piece, Text.isBlank ch = false) ∧ s = String.ofList (Text.strip piece) := by
  have hblank : ∀ piece : List Char, (∃ ch ∈ piece, Text.isBlank ch = false) ↔
      Text.strip piece ≠ [] := by
    intro piece
    simp [Text.strip_eq_nil_iff]
  simp only [tokens, List.mem_filter, List.mem_map, hblank]
  constructor
  case mp =>
    rintro ⟨⟨piece, hpiece, rfl⟩, hne⟩
    exact ⟨piece, hpiece, by simpa using hne, rfl⟩
  case mpr =>
    rintro ⟨piece, hpiece, hne, rfl⟩
    exact ⟨⟨piece, hpiece, rfl⟩, by simpa using hne⟩

theorem trim_of_mem_tokens (h : s ∈ tokens spec) : Text.trim s = s := by
  obtain ⟨piece, -, -, rfl⟩ := mem_tokens_iff.mp h
  rw [Text.trim, String.toList_ofList, Text.strip_strip]

variable [Codecs] {as : List Algorithm} {c : Chain}

theorem mapM_byName_eq_ok_iff :
    (tokens spec).mapM Registry.byName = .ok as ↔
      List.Forall₂ Registry.Denotes (tokens spec) as := by
  rw [Result.mapM_eq_ok_iff, List.forall₂_iff_zip, List.forall₂_iff_zip]
  refine and_congr_right fun _ => forall₂_congr fun s a => imp_congr_right fun h => ?_
  rw [Registry.byName_eq_ok_iff, trim_of_mem_tokens (List.of_mem_zip h).left]

theorem parse_eq_of_denotes (h : List.Forall₂ Registry.Denotes (tokens spec) as) :
    parse spec = ofAlgorithms as := by
  rw [parse, mapM_byName_eq_ok_iff.mpr h, Result.ok_bind]

-- Between the commas of the text stand the names of the stages.
theorem tokens_text (h : c.Registered) : tokens c.text = c.stages.map Algorithm.name := by
  have htext : c.text.toList = [','].intercalate (c.stages.map fun a => a.name.toList) := by
    simp [text, String.toList_intercalate, Function.comp_def]
  have hcomma : ∀ piece ∈ c.stages.map fun a => a.name.toList, ',' ∉ piece := by
    intro piece hpiece
    obtain ⟨a, ha, rfl⟩ := List.mem_map.mp hpiece
    exact (Registry.name_of_mem (h.mem a ha)).right.right.left
  have hne : (c.stages.map fun a => a.name.toList) ≠ [] := by
    rw [ne_eq, List.map_eq_nil_iff, ← List.length_eq_zero_iff, length_stages]
    exact h.size_pos.ne'
  have hstrip : ∀ a ∈ c.stages, String.ofList (Text.strip a.name.toList) = a.name := by
    intro a ha
    have ⟨_, _, _, hblank⟩ := Registry.name_of_mem (h.mem a ha)
    rw [Text.strip_of_not_blank (by simpa using hblank), String.ofList_toList]
  rw [tokens, htext, Text.separate_intercalate hcomma hne, List.map_map, List.filter_eq_self.mpr]
  · exact List.map_congr_left hstrip
  · intro s hs
    obtain ⟨a, ha, rfl⟩ := List.mem_map.mp hs
    have ⟨_, hempty, _⟩ := Registry.name_of_mem (h.mem a ha)
    simpa [hstrip a ha] using hempty

theorem parse_text (h : c.Registered) : parse c.text = .ok c := by
  rw [parse_eq_of_denotes, h.ordered]
  rw [tokens_text h, List.forall₂_map_left_iff, List.forall₂_same]
  exact fun a ha => ⟨h.mem a ha, .inl rfl⟩

-- Text is read to its end, or fails at a token that is no algorithm.
theorem parse_cases (spec : String) :
    (∃ as, List.Forall₂ Registry.Denotes (tokens spec) as ∧ parse spec = ofAlgorithms as) ∨
      ∃ s ∈ tokens spec, (∀ a, ¬Registry.Denotes s a) ∧
        parse spec = .error (.unknownAlgorithm s) := by
  cases hm : (tokens spec).mapM Registry.byName
  case ok as =>
    have hall := mapM_byName_eq_ok_iff.mp hm
    exact .inl ⟨as, hall, parse_eq_of_denotes hall⟩
  case error e =>
    have ⟨s, hs, he⟩ := Result.exists_of_mapM_eq_error hm
    have ⟨hnone, he⟩ := Registry.byName_eq_error_iff.mp he
    rw [trim_of_mem_tokens hs] at hnone he
    exact .inr ⟨s, hs, hnone, by rw [parse, hm, he, Result.error_bind]⟩

theorem exists_of_mem_tokens (h : List.Forall₂ Registry.Denotes (tokens spec) as)
    (hs : s ∈ tokens spec) : ∃ a, Registry.Denotes s a := by
  obtain ⟨i, hi, rfl⟩ := List.getElem_of_mem hs
  exact ⟨_, h.get hi (h.length_eq ▸ hi)⟩

theorem parse_eq_unknownAlgorithm_iff :
    (∃ name, parse spec = .error (.unknownAlgorithm name)) ↔
      ∃ s ∈ tokens spec, ∀ a, ¬Registry.Denotes s a := by
  cases parse_cases spec
  case inl h =>
    obtain ⟨as, hall, hparse⟩ := h
    constructor
    case mp =>
      rintro ⟨name, h⟩
      have ⟨fault, hfault, _⟩ := clash_of_ofAlgorithms (hparse.symm.trans h)
      contradiction
    case mpr =>
      rintro ⟨s, hs, hnone⟩
      have ⟨a, ha⟩ := exists_of_mem_tokens hall hs
      exact absurd ha (hnone a)
  case inr h =>
    obtain ⟨s, hs, hnone, hparse⟩ := h
    exact ⟨fun _ => ⟨s, hs, hnone⟩, fun _ => ⟨s, hparse⟩⟩

-- Text names a chain token by token. The text of a chain names it if its stages are registered,
-- so two texts name the same chain if and only if these chains have the same text.
theorem parse_tokens (spec : String) :
    ((∃ name, parse spec = .error (.unknownAlgorithm name)) ↔
      ∃ piece ∈ Text.separate ',' spec.toList, (∃ ch ∈ piece, Text.isBlank ch = false) ∧
        ∀ a, ¬Registry.Denotes (String.ofList (Text.strip piece)) a) ∧
    ((∀ name, parse spec ≠ .error (.unknownAlgorithm name)) →
      ∃ as, List.Forall₂ Registry.Denotes (tokens spec) as) ∧
    (∀ as, List.Forall₂ Registry.Denotes (tokens spec) as → parse spec = ofAlgorithms as) ∧
    (∀ as c, ofAlgorithms as = .ok c →
      (parse c.text = .ok c ↔ ∀ a ∈ as, a ∈ Registry.algorithms)) ∧
    ∀ c, parse spec = .ok c →
      parse c.text = .ok c ∧ ∀ spec' d, parse spec' = .ok d → (c.text = d.text ↔ c = d) := by
  refine ⟨?_, fun h => ?_, fun as => parse_eq_of_denotes, fun as c hc => ?_,
    fun c hc => ⟨?_, fun spec' d hd => ?_⟩⟩
  · rw [parse_eq_unknownAlgorithm_iff]
    constructor
    case mp =>
      rintro ⟨s, hs, hnone⟩
      obtain ⟨piece, hpiece, hblank, rfl⟩ := mem_tokens_iff.mp hs
      exact ⟨piece, hpiece, hblank, hnone⟩
    case mpr =>
      rintro ⟨piece, hpiece, hblank, hnone⟩
      exact ⟨_, mem_tokens_iff.mpr ⟨piece, hpiece, hblank, rfl⟩, hnone⟩
  · cases parse_cases spec
    case inl h =>
      have ⟨as, hall, _⟩ := h
      exact ⟨as, hall⟩
    case inr hs =>
      have ⟨s, _, _, hs⟩ := hs
      exact absurd hs (h s)
  · constructor
    case mp =>
      intro h
      obtain ⟨-, rfl⟩ := placed_of_ofAlgorithms hc
      exact (registered_of_parse h).mem
    case mpr => exact fun ha => parse_text (.of_ofAlgorithms ha hc)
  · exact parse_text (registered_of_parse hc)
  · have hc' := parse_text (registered_of_parse hc)
    have hd' := parse_text (registered_of_parse hd)
    exact ⟨fun htext => Except.ok.inj (hc'.symm.trans (htext ▸ hd')), congrArg text⟩

-- A name and a numeral among blanks and a blank piece, and a numeral of no algorithm.
omit [Codecs] in
theorem parse_tokens_mixed :
    letI := Codecs.stored
    parse " xor_delta, +5 ," = .ok xorDeltaZstd ∧
    (∃ as, List.Forall₂ Registry.Denotes (tokens " xor_delta, +5 ,") as ∧
      parse " xor_delta, +5 ," = ofAlgorithms as) ∧
    parse xorDeltaZstd.text = .ok xorDeltaZstd ∧
    ∃ piece ∈ Text.separate ',' "zstd,77".toList, (∃ ch ∈ piece, Text.isBlank ch = false) ∧
      ∀ a, ¬Registry.Denotes (String.ofList (Text.strip piece)) a := by
  let _ := Codecs.stored
  have hparse : parse " xor_delta, +5 ," = .ok xorDeltaZstd := rfl
  have ⟨_, hnamed, hchain, _, htext⟩ := parse_tokens " xor_delta, +5 ,"
  have ⟨hunknown, _⟩ := parse_tokens "zstd,77"
  have hknown : ∀ name, parse " xor_delta, +5 ," ≠ .error (.unknownAlgorithm name) :=
    fun name h => nomatch hparse.symm.trans h
  have ⟨as, has⟩ := hnamed hknown
  exact ⟨hparse, ⟨as, has, hchain as has⟩, (htext _ hparse).left, hunknown.mp ⟨"77", rfl⟩⟩

end GridPress.Chain
