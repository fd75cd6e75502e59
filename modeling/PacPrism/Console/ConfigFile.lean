import PacPrism.Console.Config
import PacPrism.Foundations.Lines
import PacPrism.Foundations.Search

/-!
# Console/ConfigFile — configuration files

    # a comment
    key = value

A line is cut at its first `=`, and blanks are removed around it, around the key and around the
value.  A file written in this way, with whatever else the reader passes over between the lines, is
read as its settings, and the last one for a key stands.
-/

namespace PacPrism

namespace Config

/-- The characters that are trimmed. -/
def blanks : Bytes := lit " \t\r\n"

/-- What separates key and value. -/
def equalsSign : UInt8 := 0x3d

/-- What starts a comment. -/
def numberSign : UInt8 := 0x23

/-- Remove the blanks at both ends. -/
def trim (str : Bytes) : Bytes :=
  match Bytes.findFirstNotOf str blanks, Bytes.findLastNotOf str blanks with
  | some first, some last => (str.drop first).take (last - first + 1)
  | _, _ => []

/-- Set a value. -/
def set (config : Config) (key value : Bytes) : Config :=
  { config with entries := config.entries.insert key value }

/-- Parse one line, and set what it says; false if it says nothing. -/
def parseLine (config : Config) (line : Bytes) : Bool × Config :=
  let trimmed := trim line
  if trimmed = [] then (false, config)
  else if trimmed.head? = some numberSign then (false, config)
  else
    match Bytes.find trimmed [equalsSign] with
    | none => (false, config)
    | some pos =>
      let key := trim (Bytes.before trimmed pos)
      let value := trim (Bytes.after trimmed pos)
      if key = [] then (false, config) else (true, config.set key value)

/-- Load a file with this content, if it can be opened.  Lines that say nothing are passed over. -/
def loadFromFile (config : Config) (file : Option Bytes) : Bool × Config :=
  match file with
  | none => (false, config)
  | some content =>
    (true, (Bytes.lines content).foldl (fun config line => (config.parseLine line).2) config)

/-! ## Trimming -/

/-- Nothing but blanks. -/
def Blank (s : Bytes) : Prop := ∀ b ∈ s, b ∈ blanks

theorem trim_of_blank {s : Bytes} (h : Blank s) : trim s = [] := by
  rw [trim, Bytes.findFirstNotOf_eq_none h]

/-- **Blanks around a trimmed text are removed.** -/
theorem trim_append {l m r : Bytes} (hl : Blank l) (hm : Bytes.Trimmed blanks m) (hr : Blank r) :
    trim (l ++ (m ++ r)) = m := by
  by_cases hne : m = []
  · subst hne
    exact trim_of_blank fun b hb => (List.mem_append.1 hb).elim (hl b) (hr b)
  · have hpos := List.length_pos_iff.2 hne
    rw [trim, Bytes.findFirstNotOf_append hl hm hne r, Bytes.findLastNotOf_append hr hm hne l]
    dsimp only
    rw [List.drop_left, List.take_append_of_le_length (by omega), List.take_of_length_le (by omega)]

/-- A text is trimmed up to its first character that is no blank. -/
theorem exists_trim_cons {l : Bytes} {b : UInt8} (hl : Blank l) (hb : b ∉ blanks) (s : Bytes) :
    ∃ s', trim (l ++ b :: s) = b :: s' := by
  obtain ⟨l', m, r, hs, hl', hr, hm⟩ := Bytes.exists_trimmed blanks (b :: s)
  cases l' with
  | cons x l' =>
    obtain ⟨rfl, -⟩ := List.cons.inj hs
    exact absurd (hl' b (List.mem_cons_self ..)) hb
  | nil =>
    cases m with
    | nil =>
      have hmem : b ∈ r := by
        rw [← show b :: s = r from hs]
        exact List.mem_cons_self ..
      exact absurd (hr b hmem) hb
    | cons x m =>
      obtain ⟨rfl, -⟩ := List.cons.inj hs
      refine ⟨m, ?_⟩
      rw [hs, List.nil_append]
      exact trim_append hl hm hr

/-- What is trimmed of a text is part of it. -/
theorem mem_of_mem_trim {s : Bytes} {b : UInt8} (h : b ∈ trim s) : b ∈ s := by
  obtain ⟨l, m, r, rfl, hl, hr, hm⟩ := Bytes.exists_trimmed blanks s
  rw [trim_append hl hm hr] at h
  exact List.mem_append_right l (List.mem_append_left r h)

/-! ## Lines -/

/-- A line that the reader passes over: blank, a comment, without `=` or without a key. -/
def Ignored (line : Bytes) : Prop :=
  Blank line ∨ (∃ l s, Blank l ∧ line = l ++ numberSign :: s)
    ∨ equalsSign ∉ line ∨ ∃ l s, Blank l ∧ line = l ++ equalsSign :: s

/-- A carriage return makes no difference to that. -/
theorem Ignored.append_blank {line r : Bytes} (h : Ignored line) (hr : Blank r) :
    Ignored (line ++ r) := by
  rcases h with h | ⟨l, s, hl, rfl⟩ | h | ⟨l, s, hl, rfl⟩
  · exact .inl fun b hb => (List.mem_append.1 hb).elim (h b) (hr b)
  · exact .inr (.inl ⟨l, s ++ r, hl, by simp⟩)
  · refine .inr (.inr (.inl fun hmem => (List.mem_append.1 hmem).elim h fun hb => ?_))
    exact absurd (hr equalsSign hb) (by decide)
  · exact .inr (.inr (.inr ⟨l, s ++ r, hl, by simp⟩))

/-- A line is cut at its first `=`. -/
theorem parseLine_of_trim (config : Config) {line k s : Bytes}
    (htrim : trim line = k ++ equalsSign :: s) (hk : equalsSign ∉ k)
    (hcomment : k.head? ≠ some numberSign) : config.parseLine line
      = if trim k = [] then (false, config) else (true, config.set (trim k) (trim s)) := by
  obtain ⟨p, hp, hbefore, hafter⟩ := Bytes.exists_find_cons hk s
  have hhead : (k ++ equalsSign :: s).head? ≠ some numberSign := by
    cases k with
    | nil => exact fun h => absurd (Option.some.inj h) (by decide)
    | cons b k => exact hcomment
  rw [parseLine, htrim]
  dsimp only
  rw [if_neg (by simp), if_neg hhead, hp]
  dsimp only
  rw [hbefore, hafter]

/-- **Ignored lines set nothing.** -/
theorem parseLine_of_ignored {line : Bytes} (h : Ignored line) (config : Config) :
    config.parseLine line = (false, config) := by
  rcases h with h | ⟨l, s, hl, rfl⟩ | h | ⟨l, s, hl, rfl⟩
  · rw [parseLine]
    exact if_pos (trim_of_blank h)
  · obtain ⟨s', hs'⟩ := exists_trim_cons hl (show numberSign ∉ blanks by decide) s
    rw [parseLine, hs']
    rfl
  · have hfind : Bytes.find (trim line) [equalsSign] = none :=
      Bytes.find_eq_none (Bytes.search_singleton_eq_none_iff.2 (mt mem_of_mem_trim h))
    rw [parseLine, hfind]
    dsimp only
    split_ifs <;> rfl
  · obtain ⟨s', hs'⟩ := exists_trim_cons hl (show equalsSign ∉ blanks by decide) s
    rw [parseLine_of_trim config (k := []) hs' (by simp) (by simp)]
    exact if_pos (trim_of_blank (by simp [Blank]))

/-- A setting that can be written to a file. -/
structure Setting where
  key : Bytes
  value : Bytes
  key_ne : key ≠ []
  key_comment : key.head? ≠ some numberSign
  key_equals : equalsSign ∉ key
  key_line : Bytes.newline ∉ key
  key_trimmed : Bytes.Trimmed blanks key
  value_line : Bytes.newline ∉ value
  value_trimmed : Bytes.Trimmed blanks value

/-- A setting is written between blanks: what remains of it when they are removed. -/
theorem exists_trim_setting (setting : Setting) {l m n r : Bytes} (hl : Blank l) (hn : Blank n)
    (hr : Blank r) :
    ∃ s, trim (l ++ (setting.key ++ (m ++ equalsSign :: (n ++ (setting.value ++ r)))))
        = (setting.key ++ m) ++ equalsSign :: s ∧ trim s = setting.value := by
  have hkey := setting.key_trimmed.1
  by_cases hvalue : setting.value = []
  · refine ⟨[], ?_, by rw [hvalue]; exact trim_of_blank (by simp [Blank])⟩
    have hm : Bytes.Trimmed blanks (setting.key ++ (m ++ [equalsSign])) :=
      .append hkey setting.key_ne (by simp +decide) (by simp)
    have hnr : Blank (n ++ r) := fun b hb => (List.mem_append.1 hb).elim (hn b) (hr b)
    have htrim := trim_append hl hm hnr
    rw [hvalue]
    simpa using htrim
  · refine ⟨n ++ setting.value, ?_, ?_⟩
    · have hm : Bytes.Trimmed blanks
          (setting.key ++ (m ++ equalsSign :: (n ++ setting.value))) := by
        refine .append hkey setting.key_ne (fun b hb => setting.value_trimmed.2 b ?_) (by simp)
        rwa [List.getLast?_append_of_ne_nil _ (by simp), ← List.cons_append,
          List.getLast?_append_of_ne_nil _ hvalue] at hb
      have htrim := trim_append hl hm hr
      simpa using htrim
    · simpa using trim_append hn setting.value_trimmed (r := []) (by simp [Blank])

/-- **A setting is read as it was written.** -/
theorem parseLine_of_setting (config : Config) (setting : Setting) {l m n r : Bytes}
    (hl : Blank l) (hm : Blank m) (hn : Blank n) (hr : Blank r) :
    config.parseLine (l ++ (setting.key ++ (m ++ equalsSign :: (n ++ (setting.value ++ r)))))
      = (true, config.set setting.key setting.value) := by
  obtain ⟨s, htrim, hs⟩ := exists_trim_setting setting (m := m) hl hn hr
  have hequals : equalsSign ∉ setting.key ++ m := by
    rw [List.mem_append, not_or]
    exact ⟨setting.key_equals, fun h => absurd (hm _ h) (by decide)⟩
  have hcomment : (setting.key ++ m).head? ≠ some numberSign := by
    rw [List.head?_append_of_ne_nil _ setting.key_ne]
    exact setting.key_comment
  have hkey : trim (setting.key ++ m) = setting.key :=
    trim_append (l := []) (by simp [Blank]) setting.key_trimmed hm
  rw [parseLine_of_trim config htrim hequals hcomment, hkey, hs, if_neg setting.key_ne]

/-! ## Files -/

/-- Blanks within a line. -/
def Padding : Type := { s : Bytes // Blank s ∧ Bytes.newline ∉ s }

/-- A line of a file, without its end. -/
inductive Line where
  | setting (setting : Setting) (beforeKey afterKey beforeValue afterValue : Padding)
  | ignored (text : Bytes) (h : Ignored text) (hline : Bytes.newline ∉ text)

/-- The two ends of lines. -/
inductive LineEnd where
  | lf
  | crlf
  deriving DecidableEq

/-- What stands before the newline. -/
def LineEnd.carriage : LineEnd → Bytes
  | .lf => []
  | .crlf => lit "\r"

namespace Line

/-- A line as it is written. -/
def text : Line → Bytes
  | setting s beforeKey afterKey beforeValue afterValue =>
    beforeKey.1 ++ (s.key ++ (afterKey.1
      ++ equalsSign :: (beforeValue.1 ++ (s.value ++ afterValue.1))))
  | ignored text _ _ => text

/-- What a line sets. -/
def binding : Line → Option (Bytes × Bytes)
  | setting s _ _ _ _ => some (s.key, s.value)
  | ignored _ _ _ => none

theorem newline_notMem_text (line : Line) : Bytes.newline ∉ line.text := by
  cases line with
  | setting s l m n r =>
    simp only [text, List.mem_append, List.mem_cons, not_or]
    exact ⟨l.2.2, s.key_line, m.2.2, by decide, n.2.2, s.value_line, r.2.2⟩
  | ignored text h hline => exact hline

/-- **A line sets what it says**, whatever its end. -/
theorem parseLine_text (line : Line) {r : Bytes} (hr : Blank r) (config : Config) :
    (config.parseLine (line.text ++ r)).2
      = line.binding.elim config fun b => config.set b.1 b.2 := by
  cases line with
  | setting s l m n r' =>
    have hafter : Blank (r'.1 ++ r) := fun b hb => (List.mem_append.1 hb).elim (r'.2.1 b) (hr b)
    have hparse := parseLine_of_setting config s l.2.1 m.2.1 n.2.1 hafter
    simp only [text, List.append_assoc, List.cons_append]
    rw [hparse]
    rfl
  | ignored text h hline =>
    exact congrArg Prod.snd (parseLine_of_ignored (h.append_blank hr) config)

end Line

theorem LineEnd.blank_carriage (e : LineEnd) : Blank e.carriage := fun b hb => by
  have hall : (e.carriage.all fun b => decide (b ∈ blanks)) = true := by cases e <;> decide
  exact of_decide_eq_true (List.all_eq_true.1 hall b hb)

theorem LineEnd.newline_notMem_carriage (e : LineEnd) : Bytes.newline ∉ e.carriage := by
  cases e <;> decide

/-- The text of a file. -/
def fileText (file : List (Line × LineEnd)) : Bytes :=
  file.flatMap fun l => l.1.text ++ l.2.carriage ++ [Bytes.newline]

/-- What the lines of a file set, in order. -/
def bindings (file : List (Line × LineEnd)) : List (Bytes × Bytes) :=
  file.filterMap fun l => l.1.binding

theorem lines_fileText (file : List (Line × LineEnd)) :
    Bytes.lines (fileText file) = file.map fun l => l.1.text ++ l.2.carriage := by
  have hline : ∀ line ∈ file.map fun l => l.1.text ++ l.2.carriage, Bytes.newline ∉ line := by
    intro line hmem
    obtain ⟨l, -, rfl⟩ := List.mem_map.1 hmem
    rw [List.mem_append, not_or]
    exact ⟨l.1.newline_notMem_text, l.2.newline_notMem_carriage⟩
  have hlines := Bytes.lines_flatMap hline
  rwa [List.flatMap_map] at hlines

/-- The settings are made in order. -/
theorem foldl_parseLine (file : List (Line × LineEnd)) (config : Config) :
    (file.map fun l => l.1.text ++ l.2.carriage).foldl
        (fun config line => (config.parseLine line).2) config
      = (bindings file).foldl (fun config b => config.set b.1 b.2) config := by
  induction file generalizing config with
  | nil => rfl
  | cons l file ih =>
    rw [List.map_cons, List.foldl_cons, l.1.parseLine_text l.2.blank_carriage, ih]
    simp only [bindings, List.filterMap_cons]
    cases l.1.binding <;> rfl

/-- The last setting of a key stands. -/
theorem lookup_foldl_set (settings : List (Bytes × Bytes)) (config : Config) (key : Bytes) :
    (settings.foldl (fun config b => config.set b.1 b.2) config).entries.lookup key
      = (settings.reverse.lookup key).or (config.entries.lookup key) := by
  induction settings generalizing config with
  | nil => rfl
  | cons b settings ih =>
    rw [List.foldl_cons, ih, List.reverse_cons, List.lookup_append, Option.or_assoc, set,
      Table.lookup_insert_eq_ite]
    congr 1
    rw [List.lookup_cons, List.lookup_nil]
    by_cases hkey : key = b.1
    · rw [beq_iff_eq.2 hkey, if_pos hkey]
      rfl
    · rw [beq_false_of_ne hkey, if_neg hkey]
      rfl

/-- **A configuration file is loaded as it was written**: each key has the value of its last
setting, and its previous one if the file sets none. -/
theorem loadFromFile_fileText (config : Config) (file : List (Line × LineEnd)) :
    ∃ config', config.loadFromFile (some (fileText file)) = (true, config')
      ∧ ∀ key, config'.entries.lookup key
        = ((bindings file).reverse.lookup key).or (config.entries.lookup key) := by
  refine ⟨_, rfl, fun key => ?_⟩
  rw [lines_fileText, foldl_parseLine, lookup_foldl_set]

example :
    let config := (loadFromFile {} (some (lit
      "# mirrors\n\nupstream = ftp.debian.org\r\nupstream=deb.org/?a=1 #2\n=x\ncache_dir\n"))).2
    config.getUpstream = lit "deb.org/?a=1 #2" ∧ config.getCacheDir = lit "./cache" := by decide

end Config

end PacPrism
