import AccountAccess.Http.RateLimit
import AccountAccess.Proofs.Cache.Key
import AccountAccess.Proofs.Text.Trim
import Mathlib.Tactic.IntervalCases

/-!
# By which name a client is counted

There are several texts by which a client may be known: the real address that a proxy states, the
entries of the forwarded line, the address of the connection, and a last one for want of any other.
The first that is not blank, trimmed, is what should name the client.

Blank entries of the forwarded line are passed over.  A blank real address is not: it stops the
search, nothing is left of it after trimming, and the client is counted under the empty name.  That
is the only way in which the name differs from what it should be, and so the only way in which
clients with different addresses come to share a counter.

## Why the address of a connection is never passed over

It is not trimmed and not looked at, so it has to be shown that what is written for an address is
neither blank nor changed by trimming.  `IsSolid` says so of a text: no character of it is blank.
An address is written with digits, points and colons, and at least one of them stands there if an
address of eight parts has eight (`IsWhole`), which those of connections have
(`isWhole_of_ofEndpoint?`).

## Main results

* `Names`: the name that a client should have; there is one (`exists_names`, `Names.unique`).
* `names_clientName`: the name is what it should be, unless a blank real address is stated.
* `clientName_eq_iff`: when two clients have one name.
* `clientName_names_iff`: all of this for every request and every address of a connection.
* `clientName_shared_of_blank`: two clients that share a counter and should not.
-/

namespace AccountAccess

namespace Text

variable {s t : String}

/-! ## Solid texts -/

/-- A text in which no character is blank. -/
def IsSolid (s : String) : Prop :=
  ∀ c ∈ s.toList, isBlank c = false

instance (s : String) : Decidable (IsSolid s) :=
  List.decidableBAll (fun c => isBlank c = false) s.toList

theorem IsSolid.append (h : IsSolid s) (h' : IsSolid t) : IsSolid (s ++ t) := by
  intro c hc
  rw [String.toList_append, List.mem_append] at hc
  rcases hc with hc | hc
  · exact h c hc
  · exact h' c hc

/-- Texts are joined by solid marks to a solid text. -/
theorem IsSolid.intercalate (h : IsSolid s) {texts : List String}
    (htexts : ∀ text ∈ texts, IsSolid text) : IsSolid (s.intercalate texts) := by
  induction texts with
  | nil =>
    intro c hc
    rw [String.intercalate_nil] at hc
    exact absurd hc (by simp)
  | cons text texts ih =>
    have htext := htexts text List.mem_cons_self
    cases texts with
    | nil => rwa [String.intercalate_singleton]
    | cons next texts =>
      rw [String.intercalate_cons_cons]
      exact (htext.append h).append (ih fun other hother =>
        htexts other (List.mem_cons_of_mem _ hother))

theorem intercalate_ne_empty (hs : s ≠ "") (first second : String) (texts : List String) :
    s.intercalate (first :: second :: texts) ≠ "" := by
  rw [String.intercalate_cons_cons, ne_eq, String.append_eq_empty_iff, String.append_eq_empty_iff]
  exact fun h => hs h.1.2

theorem isBlank_digitChar {n : Nat} (h : n < 16) : isBlank n.digitChar = false := by
  interval_cases n <;> rfl

/-- The digits of a number, to a base for which there are digits. -/
theorem isSolid_toDigits {base : Nat} (hbase : 1 < base) (hdigits : base ≤ 16) (n : Nat) :
    IsSolid (String.ofList (Nat.toDigits base n)) := by
  induction n using Nat.strong_induction_on with
  | _ n ih =>
    intro c hc
    rw [String.toList_ofList] at hc
    by_cases hn : n < base
    · rw [Nat.toDigits_of_lt_base hn, List.mem_singleton] at hc
      rw [hc, isBlank_digitChar (lt_of_lt_of_le hn hdigits)]
    · rw [Nat.toDigits_of_base_le hbase (not_lt.1 hn), List.mem_append, List.mem_singleton] at hc
      rcases hc with hc | rfl
      · have hless : n / base < n := Nat.div_lt_self (by omega) hbase
        exact ih _ hless c (by rwa [String.toList_ofList])
      · have hdigit : n % base < base := Nat.mod_lt n (by omega)
        exact isBlank_digitChar (lt_of_lt_of_le hdigit hdigits)

theorem IsSolid.intercalate_toDigits (h : IsSolid s) {base : Nat} (hbase : 1 < base)
    (hdigits : base ≤ 16) (numbers : List Nat) :
    IsSolid (s.intercalate (numbers.map fun n => String.ofList (Nat.toDigits base n))) := by
  refine h.intercalate fun text htext => ?_
  obtain ⟨n, -, rfl⟩ := List.mem_map.1 htext
  exact isSolid_toDigits hbase hdigits n

theorem IsSolid.isBlankText (h : IsSolid s) (hs : s ≠ "") : Text.isBlankText s = false := by
  rw [← Bool.not_eq_true, isBlankText_iff]
  intro hblank
  obtain ⟨c, hc⟩ := List.exists_mem_of_ne_nil _ (String.toList_eq_nil_iff.not.2 hs)
  have hnot := hblank c hc
  rw [h c hc] at hnot
  exact absurd hnot (by decide)

theorem IsSolid.trim_eq (h : IsSolid s) : trim s = s := by
  rw [← String.toList_inj, toList_trim, trimChars_eq_iff]
  exact ⟨.of_forall h, [], [], by simp [AllBlank], by simp [AllBlank], by simp⟩

end Text

namespace Http

/-! ## Written addresses -/

namespace Address

open Text (IsSolid)

/-- An address of eight parts has eight of them. -/
def IsWhole : Address → Prop
  | four .. => True
  | eight parts => parts.length = 8

theorem isSolid_renderFour (a b c d : Nat) : IsSolid (renderFour a b c d) :=
  IsSolid.intercalate_toDigits (by decide) (by decide) (by decide) [a, b, c, d]

theorem isSolid_renderParts (parts : List Nat) : IsSolid (renderParts parts) :=
  IsSolid.intercalate_toDigits (by decide) (by decide) (by decide) parts

/-- No character of a written address is blank. -/
theorem isSolid_render (address : Address) : IsSolid address.render := by
  unfold render
  split
  · exact isSolid_renderFour _ _ _ _
  · split
    · exact IsSolid.append (by decide) (isSolid_renderFour _ _ _ _)
    · dsimp only
      split
      · exact isSolid_renderParts _
      · exact ((isSolid_renderParts _).append (by decide)).append
          (isSolid_renderParts _)

theorem renderParts_ne_empty {parts : List Nat} (h : parts.length = 8) :
    renderParts parts ≠ "" := by
  rcases parts with _ | ⟨first, _ | ⟨second, rest⟩⟩
  · exact absurd h (by simp)
  · exact absurd h (by simp)
  · exact Text.intercalate_ne_empty (by decide) _ _ (rest.map _)

/-- **Something is written for an address.** -/
theorem IsWhole.render_ne_empty {address : Address} (h : address.IsWhole) :
    address.render ≠ "" := by
  cases address with
  | four a b c d => exact Text.intercalate_ne_empty (by decide) _ _ _
  | eight parts =>
    unfold render
    dsimp only
    split
    · simp
    · split
      · exact renderParts_ne_empty h
      · simp

/-- An address that is read is whole. -/
theorem isWhole_of_readEight? {s : String} {address : Address} (h : readEight? s = some address) :
    address.IsWhole := by
  unfold readEight? at h
  split at h
  · obtain ⟨parts, -, hparts⟩ := Option.bind_eq_some_iff.1 h
    split at hparts
    · rename_i hlength
      rw [← Option.some.inj hparts]
      exact hlength
    · exact absurd hparts (by simp)
  · simp only [Option.bind_eq_bind, Option.bind_eq_some_iff] at h
    obtain ⟨front, -, back, -, haddress⟩ := h
    split at haddress
    · rw [← Option.some.inj haddress]
      show (front ++ List.replicate (8 - front.length - back.length) 0 ++ back).length = 8
      rw [List.length_append, List.length_append, List.length_replicate]
      omega
    · exact absurd haddress (by simp)

/-- **The address of a connection is whole.** -/
theorem isWhole_of_ofEndpoint? {s : String} {address : Address}
    (h : ofEndpoint? s = some address) : address.IsWhole := by
  unfold ofEndpoint? at h
  split at h
  · simp only [Option.bind_eq_bind, Option.bind_eq_some_iff] at h
    obtain ⟨⟨text, port⟩, -, hscoped⟩ := h
    dsimp only at hscoped
    split at hscoped
    · unfold readScoped? at hscoped
      split at hscoped
      · exact isWhole_of_readEight? hscoped
      · split at hscoped
        · exact isWhole_of_readEight? hscoped
        · exact absurd hscoped (by simp)
    · exact absurd hscoped (by simp)
  · simp only [Option.bind_eq_bind, Option.bind_eq_some_iff] at h
    obtain ⟨⟨text, port⟩, -, ⟨a, b, c, d⟩, -, hfour⟩ := h
    dsimp only at hfour
    split at hfour
    · rw [← Option.some.inj hfour]
      trivial
    · exact absurd hfour (by simp)

end Address

/-! ## The name of a client -/

variable {headers : Headers} {remote : Option Address} {name : String}

/-- What proxies say of a client, in order of preference: the real address, and the entries of the
forwarded line. -/
def proxyTexts (headers : Headers) : List String :=
  (headers.readable? "x-real-ip").toList ++
    ((headers.readable? "x-forwarded-for").toList.flatMap (Text.pieces ','))

/-- The texts by which a client may be known, in order of preference. -/
def clientTexts (headers : Headers) (remote : Option Address) : List String :=
  proxyTexts headers ++ remote.toList.map Address.render ++ ["unknown"]

/-- **The name that a client should have**: the first of the texts that is not blank, trimmed. -/
def Names (headers : Headers) (remote : Option Address) (name : String) : Prop :=
  ∃ front text back, clientTexts headers remote = front ++ text :: back ∧
    (∀ other ∈ front, Text.isBlankText other = true) ∧ Text.isBlankText text = false ∧
    Text.trim text = name

/-- A proxy states a blank real address. -/
def StatesBlank (headers : Headers) : Prop :=
  ∃ line, headers.readable? "x-real-ip" = some line ∧ Text.isBlankText line = true

/-- Proxies say nothing of the client: whatever they state is blank. -/
def ProxiesSilent (headers : Headers) : Prop :=
  ∀ text ∈ proxyTexts headers, Text.isBlankText text = true

theorem names_iff_find? : Names headers remote name ↔
    ∃ text, (clientTexts headers remote).find? (fun text => !Text.isBlankText text) = some text ∧
      Text.trim text = name := by
  simp only [Names, List.find?_eq_some_iff_append, Bool.not_eq_true', Bool.not_not]
  constructor
  · rintro ⟨front, text, back, htexts, hfront, htext, hname⟩
    exact ⟨text, ⟨htext, front, back, htexts, hfront⟩, hname⟩
  · rintro ⟨text, ⟨htext, front, back, htexts, hfront⟩, hname⟩
    exact ⟨front, text, back, htexts, hfront, htext, hname⟩

theorem Names.unique {other : String} (h : Names headers remote name)
    (h' : Names headers remote other) : name = other := by
  obtain ⟨text, hfind, rfl⟩ := names_iff_find?.1 h
  obtain ⟨text', hfind', rfl⟩ := names_iff_find?.1 h'
  rw [hfind, Option.some.injEq] at hfind'
  rw [hfind']

theorem Names.ne_empty (h : Names headers remote name) : name ≠ "" := by
  obtain ⟨_, text, _, -, -, htext, rfl⟩ := h
  rw [ne_eq, Text.trim_eq_empty_iff, htext]
  exact Bool.false_ne_true

theorem exists_names (headers : Headers) (remote : Option Address) :
    ∃ name, Names headers remote name := by
  have hsome : ((clientTexts headers remote).find? fun text => !Text.isBlankText text).isSome := by
    rw [List.find?_isSome]
    exact ⟨"unknown", by simp [clientTexts], by decide⟩
  obtain ⟨text, htext⟩ := Option.isSome_iff_exists.1 hsome
  exact ⟨_, names_iff_find?.2 ⟨text, htext, rfl⟩⟩

/-! ## The name it has -/

/-- **The name is what it should be, unless a blank real address stops the search.**  Each of the
sources passes on exactly what is not blank in it, apart from the real address. -/
theorem names_clientName (hremote : ∀ address ∈ remote, address.IsWhole)
    (h : ¬StatesBlank headers) : Names headers remote (clientName headers remote) := by
  have hreal : (headers.readable? "x-real-ip").toList.find? (fun text => !Text.isBlankText text) =
      headers.readable? "x-real-ip" := by
    cases hline : headers.readable? "x-real-ip" with
    | none => rfl
    | some line =>
      have hnot : Text.isBlankText line = false := by
        rw [← Bool.not_eq_true]
        exact fun hblank => h ⟨line, hline, hblank⟩
      rw [Option.toList_some, List.find?_cons_of_pos (by rw [hnot]; rfl)]
  have hforwarded : ((headers.readable? "x-forwarded-for").toList.flatMap
        (Text.pieces ',')).find? (fun text => !Text.isBlankText text) =
      (headers.readable? "x-forwarded-for").bind fun line =>
        (Text.pieces ',' line).find? fun entry => !Text.isBlankText entry := by
    cases headers.readable? "x-forwarded-for" with
    | none => rfl
    | some line => rw [Option.toList_some, List.flatMap_singleton, Option.bind_some]
  have haddress : (remote.toList.map Address.render).find? (fun text => !Text.isBlankText text) =
      remote.map Address.render := by
    cases remote with
    | none => rfl
    | some address =>
      have hnot : Text.isBlankText address.render = false :=
        address.isSolid_render.isBlankText (hremote address rfl).render_ne_empty
      rw [Option.toList_some, List.map_singleton, List.find?_cons_of_pos (by rw [hnot]; rfl),
        Option.map_some]
  have hlast : ∀ found : Option String, found.or (["unknown"].find? fun text =>
      !Text.isBlankText text) = some (found.getD "unknown") := by
    intro found
    cases found with
    | none => rfl
    | some text => rfl
  refine names_iff_find?.2 ⟨_, ?_, rfl⟩
  rw [clientTexts, proxyTexts, List.find?_append, List.find?_append, List.find?_append, hreal,
    hforwarded, haddress, hlast, Option.or_assoc]

theorem clientName_of_statesBlank (h : StatesBlank headers) (remote : Option Address) :
    clientName headers remote = "" := by
  obtain ⟨line, hline, hblank⟩ := h
  rw [clientName, hline]
  exact Text.trim_eq_empty_iff.2 hblank

theorem names_of_proxiesSilent (h : ProxiesSilent headers) {address : Address}
    (haddress : address.IsWhole) : Names headers (some address) address.render :=
  ⟨proxyTexts headers, address.render, ["unknown"], List.append_assoc .., h,
    address.isSolid_render.isBlankText haddress.render_ne_empty, address.isSolid_render.trim_eq⟩

/-- **Two clients have one name** if a blank real address is stated of both, or of neither and they
should have one name. -/
theorem clientName_eq_iff {headers' : Headers} {remote' : Option Address}
    (hremote : ∀ address ∈ remote, address.IsWhole)
    (hremote' : ∀ address ∈ remote', address.IsWhole) :
    clientName headers remote = clientName headers' remote' ↔
      StatesBlank headers ∧ StatesBlank headers' ∨ ¬StatesBlank headers ∧ ¬StatesBlank headers' ∧
        ∃ name, Names headers remote name ∧ Names headers' remote' name := by
  by_cases hblank : StatesBlank headers
  · have hempty := clientName_of_statesBlank hblank remote
    by_cases hblank' : StatesBlank headers'
    · rw [hempty, clientName_of_statesBlank hblank' remote']
      exact iff_of_true rfl (Or.inl ⟨hblank, hblank'⟩)
    · rw [hempty]
      refine iff_of_false (names_clientName hremote' hblank').ne_empty.symm ?_
      rintro (⟨-, h⟩ | ⟨h, -, -⟩)
      · exact hblank' h
      · exact h hblank
  · have hnames := names_clientName hremote hblank
    by_cases hblank' : StatesBlank headers'
    · rw [clientName_of_statesBlank hblank' remote']
      refine iff_of_false hnames.ne_empty ?_
      rintro (⟨h, -⟩ | ⟨-, h, -⟩)
      · exact hblank h
      · exact h hblank'
    · have hnames' := names_clientName hremote' hblank'
      constructor
      · intro heq
        exact Or.inr ⟨hblank, hblank', _, hnames, heq ▸ hnames'⟩
      · rintro (⟨h, -⟩ | ⟨-, -, name, hname, hname'⟩)
        · exact absurd h hblank
        · rw [hnames.unique hname, hnames'.unique hname']

/-- **By which name a client is counted.**  For every request and every address of a connection:
there is one name that the client should have, and it is not blank.  The client has that name
unless a proxy states a blank real address; then the name is empty.  Of two requests of which
proxies say nothing and whose addresses are written differently, the counter is the same exactly if
a blank real address is stated in both. -/
theorem clientName_names_iff (hremote : ∀ address ∈ remote, address.IsWhole) :
    (∃ name, (∀ other, Names headers remote other ↔ other = name) ∧ name ≠ "") ∧
    (Names headers remote (clientName headers remote) ↔ ¬StatesBlank headers) ∧
    (StatesBlank headers → clientName headers remote = "") ∧
    ∀ (headers' : Headers) (address address' : Address), remote = some address →
      address'.IsWhole → address.render ≠ address'.render →
      ProxiesSilent headers → ProxiesSilent headers' →
      ((CacheKey.requests (clientName headers (some address))).text =
          (CacheKey.requests (clientName headers' (some address'))).text ↔
        StatesBlank headers ∧ StatesBlank headers') := by
  refine ⟨?_, ⟨fun hnames hblank => ?_, names_clientName hremote⟩,
    fun hblank => clientName_of_statesBlank hblank remote, ?_⟩
  · obtain ⟨name, hname⟩ := exists_names headers remote
    refine ⟨name, fun other => ⟨fun hother => hother.unique hname, ?_⟩, hname.ne_empty⟩
    rintro rfl
    exact hname
  · exact hnames.ne_empty (clientName_of_statesBlank hblank remote)
  · rintro headers' address address' rfl haddress' hne hsilent hsilent'
    have hwhole : ∀ other ∈ some address', other.IsWhole := by
      rintro other hother
      rwa [← Option.some.inj hother]
    rw [CacheKey.text_eq_text_iff, CacheKey.requests.injEq, clientName_eq_iff hremote hwhole,
      or_iff_left]
    rintro ⟨-, -, name, hname, hname'⟩
    refine hne ?_
    rw [← hname.unique (names_of_proxiesSilent hsilent (hremote address rfl)),
      hname'.unique (names_of_proxiesSilent hsilent' haddress')]

/-- A forwarded line of which only the second entry is not blank. -/
def forwardedTwice : Headers :=
  [("x-forwarded-for", Text.toBytes " , 10.0.0.2, 10.0.0.3")]

theorem clientName_names_iff_forwarded :
    (∀ address ∈ some (Address.four 10 0 0 1), address.IsWhole) ∧ ¬StatesBlank forwardedTwice ∧
      Names forwardedTwice (some (.four 10 0 0 1))
        (clientName forwardedTwice (some (.four 10 0 0 1))) ∧
      clientName forwardedTwice (some (.four 10 0 0 1)) = "10.0.0.2" := by
  have hwhole : ∀ address ∈ some (Address.four 10 0 0 1), address.IsWhole := by
    have hconnection : Address.ofEndpoint? "10.0.0.1:5" = some (.four 10 0 0 1) := by
      decide +kernel
    rintro address hmem
    rw [← Option.some.inj hmem]
    exact Address.isWhole_of_ofEndpoint? hconnection
  have hnot : ¬StatesBlank forwardedTwice := by
    rintro ⟨line, hline, -⟩
    have hnone : forwardedTwice.readable? "x-real-ip" = none := by decide +kernel
    rw [hnone] at hline
    exact absurd hline (by simp)
  exact ⟨hwhole, hnot, (clientName_names_iff hwhole).2.1.2 hnot, by decide +kernel⟩

/-- A request with a blank real address. -/
def blankStated : Headers :=
  [("x-real-ip", [0x20])]

/-- **A blank real address hides the address of the connection.**  Two requests from different
addresses, in which proxies say nothing else, are counted under the empty name, though each should
be counted under its own address. -/
theorem clientName_shared_of_blank :
    Names blankStated (some (.four 10 0 0 1)) "10.0.0.1" ∧
      Names blankStated (some (.four 10 0 0 2)) "10.0.0.2" ∧
      clientName blankStated (some (.four 10 0 0 1)) = "" ∧
      (CacheKey.requests (clientName blankStated (some (.four 10 0 0 1)))).text =
        (CacheKey.requests (clientName blankStated (some (.four 10 0 0 2)))).text := by
  have hsilent : ProxiesSilent blankStated := by
    unfold ProxiesSilent
    decide +kernel
  have hnames : ∀ n, Names blankStated (some (.four 10 0 0 n)) (Address.four 10 0 0 n).render :=
    fun _ => names_of_proxiesSilent hsilent trivial
  exact ⟨hnames 1, hnames 2, by decide +kernel, by decide +kernel⟩

end Http
end AccountAccess
