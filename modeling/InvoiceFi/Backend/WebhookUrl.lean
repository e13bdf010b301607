import InvoiceFi.Backend.Errors
import InvoiceFi.Lib.Fallible
import InvoiceFi.Lib.IpAddress

/-!
# Which webhook URLs are public (`webhooks/webhook-url.ts`)

`assertPublicWebhookUrl` parses a URL and refuses it by the text of its hostname. The parser of the
URL standard is a parameter, `UrlParser`: the hostname of an http or https URL is the text of a
`Host`, an address or a domain name.

The dotted decimal texts are read as numbers and are decided exactly. The texts of the IPv6
addresses are matched against three prefixes, which are applied to domain names as well, and are
longer or shorter than the ranges they stand for: `guard_exact_iff`.
-/

namespace InvoiceFi

namespace Backend

/-! ## Hosts -/

/-- The characters of a domain name after the parser: ASCII characters that are no upper case
letters and no forbidden domain code points. -/
def isDomainChar (c : Char) : Bool :=
  decide ('!' ≤ c) && decide (c ≤ '~') && !c.isUpper &&
    !(['#', '%', '/', ':', '<', '>', '?', '@', '[', '\\', ']', '^', '|'].contains c)

/-- The labels of a domain name that the parser takes for a number. -/
def isIpv4Number (label : List Char) : Bool :=
  !label.isEmpty && label.all Char.isDigit ||
    match label with
    | '0' :: 'x' :: digits => digits.all fun c =>
        c.isDigit || (decide ('a' ≤ c) && decide (c ≤ 'f'))
    | _ => false

/-- The ends-in-a-number check: such a text is an IPv4 address or is refused by the parser. -/
def endsInANumber (chars : List Char) : Bool :=
  match (chars.splitOn '.').reverse with
  | [] | [[]] => false
  | [] :: last :: _ => isIpv4Number last
  | last :: _ => isIpv4Number last

/-- A domain name as the parser leaves it. -/
structure Domain where
  chars : List Char
  ne_nil : chars ≠ []
  allowed : ∀ c ∈ chars, isDomainChar c = true
  not_number : endsInANumber chars = false

/-- The host of a URL. -/
inductive Host where
  | ipv4 (address : Ipv4)
  | ipv6 (address : Ipv6)
  | domain (name : Domain)

/-- The text of a host. -/
def Host.chars : Host → List Char
  | .ipv4 address => address.chars
  | .ipv6 address => '[' :: address.chars ++ [']']
  | .domain name => name.chars

/-- What is read of a `URL`. -/
structure Url where
  protocol : String
  hostname : String
  href : String
  deriving DecidableEq

/-- The protocols of a webhook. -/
def Url.IsHttp (url : Url) : Prop := url.protocol = "https:" ∨ url.protocol = "http:"

instance (url : Url) : Decidable url.IsHttp := inferInstanceAs (Decidable (_ ∨ _))

/-- `new URL`, which throws where there is none: the empty text is not an absolute URL, and an http
or https URL has a host. -/
structure UrlParser where
  parse : String → Option Url
  empty : parse "" = none
  hosts : ∀ {rawUrl url}, parse rawUrl = some url → url.IsHttp →
    ∃ host : Host, url.hostname.toList = host.chars

/-! ## The guard -/

/-- `replace(/^\[|\]$/g, '')`. -/
def stripBrackets (chars : List Char) : List Char :=
  let chars := if chars.head? = some '[' then chars.tail else chars
  if chars.getLast? = some ']' then chars.dropLast else chars

/-- One of the four groups of the IPv4 pattern. -/
def isOctet (digits : List Char) : Bool :=
  digits.all Char.isDigit && decide (1 ≤ digits.length) && decide (digits.length ≤ 3)

/-- `hostname.match(/^(\d{1,3})\.(\d{1,3})\.(\d{1,3})\.(\d{1,3})$/)`, with the numbers of the
groups. -/
def matchIpv4 (hostname : List Char) : Option (Nat × Nat × Nat × Nat) :=
  match hostname.splitOn '.' with
  | [a, b, c, d] =>
    if isOctet a && isOctet b && isOctet c && isOctet d then
      some (Nat.ofDigitChars 10 a 0, Nat.ofDigitChars 10 b 0, Nat.ofDigitChars 10 c 0,
        Nat.ofDigitChars 10 d 0)
    else none
  | _ => none

/-- `hostname === 'localhost' || hostname.endsWith('.localhost')`. -/
def IsLocalhost (hostname : List Char) : Prop :=
  hostname = "localhost".toList ∨ ".localhost".toList <:+ hostname

instance (hostname : List Char) : Decidable (IsLocalhost hostname) :=
  inferInstanceAs (Decidable (_ ∨ _))

/-- `/^(fe80|fc00|fd)/i.test(hostname)`, of a text in lower case. -/
def HasLocalPrefix (hostname : List Char) : Prop :=
  "fe80".toList <+: hostname ∨ "fc00".toList <+: hostname ∨ "fd".toList <+: hostname

instance (hostname : List Char) : Decidable (HasLocalPrefix hostname) :=
  inferInstanceAs (Decidable (_ ∨ _ ∨ _))

/-- `isBlockedHostname`. -/
def isBlockedHostname (hostname : List Char) : Bool :=
  if IsLocalhost hostname then true
  else if hostname = "::1".toList ∨ hostname = "0:0:0:0:0:0:0:1".toList then true
  else
    match matchIpv4 hostname with
    | some (a, b, c, d) =>
      if a > 255 ∨ b > 255 ∨ c > 255 ∨ d > 255 then true
      else if a = 0 then true
      else if a = 127 then true
      else if a = 10 then true
      else if a = 169 ∧ b = 254 then true
      else if a = 172 ∧ b ≥ 16 ∧ b ≤ 31 then true
      else if a = 192 ∧ b = 168 then true
      else false
    | none => decide (HasLocalPrefix hostname)

/-- `assertPublicWebhookUrl`. -/
def assertPublicWebhookUrl (parser : UrlParser) (rawUrl : String) : Except Error Url := do
  rejectIf (rawUrl = "") (.http 400 "url is required")
  let parsed ← okOr (parser.parse rawUrl) (.http 400 "url must be a valid absolute URL")
  rejectIf (parsed.protocol ≠ "https:" ∧ parsed.protocol ≠ "http:")
    (.http 400 "url must use http or https")
  let hostname := stripBrackets (parsed.hostname.toList.map Char.toLower)
  rejectIf (isBlockedHostname hostname = true)
    (.http 400 "url must not target a loopback, private, or link-local address")
  pure parsed

/-! ## What the guard is to refuse -/

/-- The IPv4 addresses of this network, loopback, private and link-local. -/
def Ipv4Internal (address : Nat) : Prop :=
  InBlock 32 (Ipv4.ofOctets 0 0 0 0) 8 address ∨
  InBlock 32 (Ipv4.ofOctets 127 0 0 0) 8 address ∨
  InBlock 32 (Ipv4.ofOctets 10 0 0 0) 8 address ∨
  InBlock 32 (Ipv4.ofOctets 172 16 0 0) 12 address ∨
  InBlock 32 (Ipv4.ofOctets 192 168 0 0) 16 address ∨
  InBlock 32 (Ipv4.ofOctets 169 254 0 0) 16 address

instance (address : Nat) : Decidable (Ipv4Internal address) := by
  unfold Ipv4Internal
  infer_instance

/-- An IPv6 address that stands for the IPv4 address of its last 32 bits, `::ffff:0:0/96`. -/
def Ipv4Mapped (address : Nat) : Prop := InBlock 128 (0xffff * 2 ^ 32) 96 address

/-- The IPv6 addresses unspecified, loopback, unique local (`fc00::/7`) and link-local
(`fe80::/10`), and those that stand for an internal IPv4 address. -/
def Ipv6Internal (address : Nat) : Prop :=
  InBlock 128 0 128 address ∨
  InBlock 128 1 128 address ∨
  InBlock 128 (0xfc00 * 2 ^ 112) 7 address ∨
  InBlock 128 (0xfe80 * 2 ^ 112) 10 address ∨
  Ipv4Mapped address ∧ Ipv4Internal (address % 2 ^ 32)

instance (address : Nat) : Decidable (Ipv6Internal address) := by
  unfold Ipv6Internal Ipv4Mapped
  infer_instance

/-- The hosts that a webhook must not target. -/
def Host.Internal : Host → Prop
  | .ipv4 address => Ipv4Internal address.val
  | .ipv6 address => Ipv6Internal address.val
  | .domain name => IsLocalhost name.chars

instance : ∀ host : Host, Decidable host.Internal
  | .ipv4 address => inferInstanceAs (Decidable (Ipv4Internal address.val))
  | .ipv6 address => inferInstanceAs (Decidable (Ipv6Internal address.val))
  | .domain name => inferInstanceAs (Decidable (IsLocalhost name.chars))

/-! ## Dotted decimal hosts -/

/-- The pattern matches a dotted decimal text, with its octets. -/
theorem matchIpv4_chars (address : Ipv4) :
    matchIpv4 address.chars = some (address.val / 2 ^ 24, address.val / 2 ^ 16 % 2 ^ 8,
      address.val / 2 ^ 8 % 2 ^ 8, address.val % 2 ^ 8) := by
  have hoctet : ∀ octet ∈ address.octets, isOctet (Nat.toDigits 10 octet) = true := by
    intro octet hmem
    have hlt := Ipv4.octet_lt hmem
    have hlen : (Nat.toDigits 10 octet).length ≤ 3 :=
      (Nat.length_toDigits_le_iff (by decide) (by decide)).2 (by omega)
    have hpos : 1 ≤ (Nat.toDigits 10 octet).length := Nat.length_toDigits_pos
    rw [isOctet, decide_eq_true hpos, decide_eq_true hlen, Bool.and_true, Bool.and_true,
      List.all_eq_true]
    exact fun c hc => Nat.isDigit_of_mem_toDigits (by decide) (by decide) hc
  have hsplit := address.splitOn_chars
  rw [Ipv4.octets] at hoctet hsplit
  simp only [List.mem_cons, List.not_mem_nil, or_false, forall_eq_or_imp, forall_eq] at hoctet
  rw [matchIpv4, hsplit]
  simp only [List.map_cons, List.map_nil]
  rw [hoctet.1, hoctet.2.1, hoctet.2.2.1, hoctet.2.2.2]
  simp only [Bool.and_true, if_true, Nat.ofDigitChars_ten_toDigits]

/-- A text that the pattern matches consists of digits and dots, and ends in a number. -/
theorem of_matchIpv4 {hostname : List Char} {octets : Nat × Nat × Nat × Nat}
    (h : matchIpv4 hostname = some octets) :
    (∀ c ∈ hostname, c.isDigit = true ∨ c = '.') ∧ endsInANumber hostname = true := by
  unfold matchIpv4 at h
  split at h
  · next a b c d hsplit =>
    split at h
    · next hoctets =>
      simp only [isOctet, Bool.and_eq_true, List.all_eq_true, decide_eq_true_eq] at hoctets
      obtain ⟨⟨⟨ha, hb⟩, hc⟩, hd⟩ := hoctets
      constructor
      · intro ch hch
        have hjoin : ['.'].intercalate (hostname.splitOn '.') = hostname :=
          List.intercalate_splitOn '.'
        rw [← hjoin, hsplit] at hch
        simp only [List.intercalate_cons_cons, List.intercalate_singleton, List.mem_append,
          List.mem_singleton] at hch
        rcases hch with (hch | hch) | (hch | hch) | (hch | hch) | hch
        · exact .inl (ha.1.1 ch hch)
        · exact .inr hch
        · exact .inl (hb.1.1 ch hch)
        · exact .inr hch
        · exact .inl (hc.1.1 ch hch)
        · exact .inr hch
        · exact .inl (hd.1.1 ch hch)
      · cases d with
        | nil => exact absurd hd.1.2 (by decide)
        | cons digit digits =>
          have hall : (digit :: digits).all Char.isDigit = true := List.all_eq_true.2 hd.1.1
          have hnumber : isIpv4Number (digit :: digits) = true := by
            unfold isIpv4Number
            rw [hall]
            rfl
          rw [endsInANumber, hsplit]
          exact hnumber
    · cases h
  · cases h

/-- A localhost name has the letter l. -/
theorem not_isLocalhost {hostname : List Char} (h : 'l' ∉ hostname) : ¬ IsLocalhost hostname := by
  rintro (rfl | hsuffix)
  · exact h (by decide)
  · exact h (hsuffix.subset (by decide))

/-- A text without a colon is not one of the loopback texts. -/
theorem not_loopback {hostname : List Char} (h : ':' ∉ hostname) :
    ¬ (hostname = "::1".toList ∨ hostname = "0:0:0:0:0:0:0:1".toList) := by
  rintro (rfl | rfl) <;> exact h (by decide)

/-- **A dotted decimal host is decided exactly.** -/
theorem isBlockedHostname_ipv4 (address : Ipv4) :
    isBlockedHostname address.chars = true ↔ Ipv4Internal address.val := by
  have hchars := (of_matchIpv4 (matchIpv4_chars address)).1
  have hl : 'l' ∉ address.chars := fun h => absurd (hchars _ h) (by decide)
  have hcolon : ':' ∉ address.chars := fun h => absurd (hchars _ h) (by decide)
  have hlt := address.isLt
  rw [isBlockedHostname, if_neg (not_isLocalhost hl), if_neg (not_loopback hcolon),
    matchIpv4_chars]
  dsimp only
  simp only [Ipv4Internal, InBlock, Ipv4.ofOctets]
  repeat' split
  all_goals simp only [true_iff, Bool.false_eq_true, false_iff]
  all_goals omega

/-! ## IPv6 hosts -/

/-- The first pieces of the IPv6 addresses whose text starts with one of the prefixes: `fe80` and
`fc00` themselves, and all that start with `fd`. -/
def PrefixPiece (piece : Nat) : Prop :=
  piece = 0xfe80 ∨ piece = 0xfc00 ∨ piece = 0xfd ∨ 0xfd0 ≤ piece ∧ piece ≤ 0xfdf ∨
    0xfd00 ≤ piece ∧ piece ≤ 0xfdff

theorem hasLocalPrefix_piece {piece : Nat} (h : piece < 2 ^ 16) (rest : List Char) :
    HasLocalPrefix (Nat.toDigits 16 piece ++ ':' :: rest) ↔ PrefixPiece piece := by
  have hfe : "fe80".toList = ['f', 'e', '8', '0'] := rfl
  have hfc : "fc00".toList = ['f', 'c', '0', '0'] := rfl
  have hfd : "fd".toList = ['f', 'd'] := rfl
  rw [HasLocalPrefix, hfe, hfc, hfd]
  rcases toDigits_piece h with ⟨hn, hd⟩ | ⟨hn, hd⟩ | ⟨hn, hd⟩ | ⟨hn, hd⟩ <;> rw [hd, PrefixPiece] <;>
    simp <;> omega

/-- The text of an IPv6 address starts with one of the prefixes exactly when its first piece is one
of theirs. -/
theorem hasLocalPrefix_chars (address : Ipv6) :
    HasLocalPrefix address.chars ↔ PrefixPiece (address.val / 2 ^ 112) := by
  have hlt := address.isLt
  rcases address.chars_cases with ⟨hfirst, hchars⟩ | ⟨rest, hchars⟩
  · have hpiece : ¬ PrefixPiece (address.val / 2 ^ 112) := by
      unfold PrefixPiece
      omega
    refine iff_of_false ?_ hpiece
    rw [hchars]
    rintro (h | h | h) <;> exact absurd (List.cons_prefix_cons.1 h).1 (by decide)
  · rw [hchars]
    exact hasLocalPrefix_piece (by omega) rest

/-- The IPv6 hosts that the guard refuses: the loopback address and those with a prefix. -/
theorem isBlockedHostname_ipv6 (address : Ipv6) :
    isBlockedHostname address.chars = true ↔
      address.val = 1 ∨ PrefixPiece (address.val / 2 ^ 112) := by
  have hno : ∀ c : Char, c ≠ ':' → (∀ m : Nat, m.digitChar ≠ c) → c ∉ address.chars := by
    intro c hcolon hdigit hmem
    rcases Ipv6.mem_chars hmem with rfl | ⟨m, hm⟩
    · exact hcolon rfl
    · exact hdigit m hm.symm
  have hmatch : matchIpv4 address.chars = none := by
    rw [matchIpv4, List.splitOn_eq_singleton
      (hno '.' (by decide) fun m => Nat.digitChar_ne '.' (by decide))]
  have hloopback : (address.chars = "::1".toList ∨ address.chars = "0:0:0:0:0:0:0:1".toList) ↔
      address.val = 1 :=
    (or_iff_left address.chars_ne_full).trans address.chars_eq_loopback_iff
  rw [isBlockedHostname, if_neg (not_isLocalhost
    (hno 'l' (by decide) fun m => Nat.digitChar_ne 'l' (by decide))), hmatch,
    ← hasLocalPrefix_chars]
  by_cases hone : address.val = 1
  · rw [if_pos (hloopback.2 hone)]
    exact iff_of_true rfl (.inl hone)
  · rw [if_neg fun htext => hone (hloopback.1 htext), or_iff_right hone]
    exact decide_eq_true_iff

/-! ## The guard as a whole -/

/-- The hostname that the guard decides: the text of the host, without the brackets of an IPv6
address. -/
def Host.hostname : Host → List Char
  | .ipv4 address => address.chars
  | .ipv6 address => address.chars
  | .domain name => name.chars

theorem toLower_of_not_upper {c : Char} (h : c.isUpper = false) : c.toLower = c := by
  have hupper : ¬ (c.val ≥ 'A'.val ∧ c.val ≤ 'Z'.val) := of_decide_eq_false h
  exact dif_neg hupper

theorem digit_not_upper {c : Char} (h : c.isDigit = true) : c.isUpper = false := by
  refine decide_eq_false ?_
  rintro ⟨hupper, -⟩
  have hdigit : c.val ≤ '9'.val := of_decide_eq_true (Bool.and_eq_true_iff.1 h).2
  exact absurd (UInt32.le_trans hupper hdigit) (by decide)

/-- A text without upper case letters is its own lower case. -/
theorem map_toLower {chars : List Char} (h : ∀ c ∈ chars, c.isUpper = false) :
    chars.map Char.toLower = chars := by
  refine (List.map_congr_left fun c hc => ?_).trans (List.map_id chars)
  exact toLower_of_not_upper (h c hc)

/-- A text without brackets keeps all its characters. -/
theorem stripBrackets_of_not_mem {chars : List Char} (hopen : '[' ∉ chars) (hclose : ']' ∉ chars) :
    stripBrackets chars = chars := by
  have hhead : chars.head? ≠ some '[' := fun h => hopen (List.mem_of_head? h)
  have hlast : chars.getLast? ≠ some ']' := fun h => hclose (List.mem_of_getLast? h)
  rw [stripBrackets]
  simp only [if_neg hhead, if_neg hlast]

/-- What stands in brackets is kept. -/
theorem stripBrackets_brackets (chars : List Char) :
    stripBrackets ('[' :: chars ++ [']']) = chars := by
  rw [stripBrackets]
  simp

theorem digitChar_not_upper (m : Nat) : m.digitChar.isUpper = false := by
  rcases Nat.lt_or_ge m 16 with hlt | hge
  · have hdigits : ∀ d : Fin 16, (Nat.digitChar d.val).isUpper = false := by decide
    exact hdigits ⟨m, hlt⟩
  · rw [Nat.digitChar_eq_star.2 hge]
    decide

/-- The guard decides the text of the host, in lower case as it is. -/
theorem stripBrackets_host (host : Host) :
    stripBrackets (host.chars.map Char.toLower) = host.hostname := by
  cases host with
  | ipv4 address =>
    have hchars := (of_matchIpv4 (matchIpv4_chars address)).1
    have hupper : ∀ c ∈ address.chars, c.isUpper = false := by
      intro c hc
      rcases hchars c hc with hdigit | rfl
      · exact digit_not_upper hdigit
      · decide
    rw [Host.chars, map_toLower hupper]
    exact stripBrackets_of_not_mem (fun h => absurd (hchars _ h) (by decide))
      fun h => absurd (hchars _ h) (by decide)
  | ipv6 address =>
    have hupper : ∀ c ∈ '[' :: address.chars ++ [']'], c.isUpper = false := by
      intro c hc
      rw [List.cons_append, List.mem_cons, List.mem_append, List.mem_singleton] at hc
      rcases hc with rfl | hc | rfl
      · decide
      · rcases Ipv6.mem_chars hc with rfl | ⟨m, rfl⟩
        · decide
        · exact digitChar_not_upper m
      · decide
    rw [Host.chars, map_toLower hupper]
    exact stripBrackets_brackets address.chars
  | domain name =>
    have hupper : ∀ c ∈ name.chars, c.isUpper = false := by
      intro c hc
      have hallowed := name.allowed c hc
      rw [isDomainChar, Bool.and_eq_true, Bool.and_eq_true, Bool.not_eq_true'] at hallowed
      exact hallowed.1.2
    rw [Host.chars, map_toLower hupper]
    exact stripBrackets_of_not_mem (fun h => absurd (name.allowed _ h) (by decide))
      fun h => absurd (name.allowed _ h) (by decide)

/-- A domain name is refused if it is a localhost name or starts with one of the prefixes. -/
theorem isBlockedHostname_domain (name : Domain) :
    isBlockedHostname name.chars = true ↔ IsLocalhost name.chars ∨ HasLocalPrefix name.chars := by
  have hmatch : matchIpv4 name.chars = none := by
    cases h : matchIpv4 name.chars with
    | none => rfl
    | some octets => exact absurd ((of_matchIpv4 h).2.symm.trans name.not_number) (by decide)
  have hcolon : ':' ∉ name.chars := fun h => absurd (name.allowed _ h) (by decide)
  rw [isBlockedHostname, if_neg (not_loopback hcolon), hmatch]
  by_cases hlocal : IsLocalhost name.chars
  · simp [hlocal]
  · simp [hlocal]

/-- The hosts that the guard decides as it should: the IPv4 addresses; the IPv6 addresses that are
not unspecified, in the part of a range that the prefixes miss, in the part of the prefixes that no
range has, or another name of an internal IPv4 address; and the domain names that start with none of
the prefixes, localhost names apart. -/
def Host.Decided : Host → Prop
  | .ipv4 _ => True
  | .ipv6 address =>
    let piece := address.val / 2 ^ 112
    address.val ≠ 0 ∧ ¬ (0xfc01 ≤ piece ∧ piece ≤ 0xfcff) ∧ ¬ (0xfe81 ≤ piece ∧ piece ≤ 0xfebf) ∧
      piece ≠ 0xfd ∧ ¬ (0xfd0 ≤ piece ∧ piece ≤ 0xfdf) ∧
      ¬ (Ipv4Mapped address.val ∧ Ipv4Internal (address.val % 2 ^ 32))
  | .domain name => HasLocalPrefix name.chars → IsLocalhost name.chars

theorem decided_ipv6_iff (address : Ipv6) :
    (address.val = 1 ∨ PrefixPiece (address.val / 2 ^ 112) ↔ Ipv6Internal address.val) ↔
      (Host.ipv6 address).Decided := by
  have hlt := address.isLt
  unfold Host.Decided Ipv6Internal PrefixPiece
  dsimp only
  generalize hmapped : Ipv4Internal (address.val % 2 ^ 32) = mapped
  simp only [InBlock, Ipv4Mapped]
  by_cases hm : mapped
  · simp only [hm, and_true]
    omega
  · simp only [hm, and_false, or_false, not_false_iff, and_true]
    omega

/-- The guard refuses an http or https URL by the text of its host. -/
theorem refused_iff (parser : UrlParser) {rawUrl : String} {url : Url} {host : Host}
    (hparse : parser.parse rawUrl = some url) (hhttp : url.IsHttp)
    (hhost : url.hostname.toList = host.chars) :
    (∃ e, assertPublicWebhookUrl parser rawUrl = .error e) ↔
      isBlockedHostname host.hostname = true := by
  have hne : rawUrl ≠ "" := by
    rintro rfl
    cases parser.empty.symm.trans hparse
  have hprotocol : ¬ (url.protocol ≠ "https:" ∧ url.protocol ≠ "http:") := by
    rintro ⟨hs, hp⟩
    exact hhttp.elim hs hp
  rw [assertPublicWebhookUrl, hparse]
  simp only [rejectIf, if_neg hne, okOr, ok_bind, if_neg hprotocol, hhost, stripBrackets_host]
  by_cases hblocked : isBlockedHostname host.hostname = true
  · rw [if_pos hblocked]
    exact iff_of_true ⟨_, rfl⟩ hblocked
  · rw [if_neg hblocked]
    exact iff_of_false (by rintro ⟨e, h⟩; cases h) hblocked

/-- **When the guard decides a URL exactly.** For every http or https URL: the guard refuses it if
and only if its host is internal, exactly when the host is one of those that it decides. -/
theorem guard_exact_iff (parser : UrlParser) {rawUrl : String} {url : Url} {host : Host}
    (hparse : parser.parse rawUrl = some url) (hhttp : url.IsHttp)
    (hhost : url.hostname.toList = host.chars) :
    ((∃ e, assertPublicWebhookUrl parser rawUrl = .error e) ↔ host.Internal) ↔ host.Decided := by
  rw [refused_iff parser hparse hhttp hhost]
  cases host with
  | ipv4 address => exact iff_of_true (isBlockedHostname_ipv4 address) trivial
  | ipv6 address =>
    rw [Host.hostname, isBlockedHostname_ipv6]
    exact decided_ipv6_iff address
  | domain name =>
    rw [Host.hostname, isBlockedHostname_domain]
    exact or_iff_left_iff_imp

/-- The domain name `fdic.gov`. -/
def fdicGov : Domain where
  chars := "fdic.gov".toList
  ne_nil := by decide
  allowed := List.all_eq_true.1 (by decide)
  not_number := by decide

/-- A parser of the URLs of given hosts. -/
def parserOf (urls : List (String × Host)) (h : "" ∉ urls.map Prod.fst) : UrlParser where
  parse rawUrl := (urls.find? fun url => url.1 = rawUrl).map fun url =>
    ⟨"http:", String.ofList url.2.chars, url.1⟩
  empty := by
    rw [Option.map_eq_none_iff, List.find?_eq_none]
    intro url hurl heq
    exact h (List.mem_map.2 ⟨url, hurl, of_decide_eq_true heq⟩)
  hosts := by
    intro rawUrl url hparse _
    obtain ⟨found, -, rfl⟩ := Option.map_eq_some_iff.1 hparse
    exact ⟨found.2, String.toList_ofList⟩

/-- URLs that the guard gets wrong: of the unspecified address, of a unique local and a link-local
one, of the IPv4 loopback address as a mapped one, of a public address and of a public name. -/
def misjudgedUrls : List (String × Host) :=
  [("http://[::]/hook", .ipv6 0),
    ("http://[fc01::1]/hook", .ipv6 ⟨0xfc01 * 2 ^ 112 + 1, by decide⟩),
    ("http://[fe90::1]/hook", .ipv6 ⟨0xfe90 * 2 ^ 112 + 1, by decide⟩),
    ("http://[::ffff:7f00:1]/hook", .ipv6 ⟨0xffff7f000001, by decide⟩),
    ("http://[fd::1]/hook", .ipv6 ⟨0xfd * 2 ^ 112 + 1, by decide⟩),
    ("http://fdic.gov/hook", .domain fdicGov)]

/-- The parser of these URLs. -/
def misjudgedParser : UrlParser := parserOf misjudgedUrls (by decide)

theorem guard_exact_iff_unspecified :
    ((∃ e, assertPublicWebhookUrl misjudgedParser "http://[::]/hook" = .error e) ↔
      (Host.ipv6 0).Internal) ↔ (Host.ipv6 0).Decided := by
  have hparse : misjudgedParser.parse "http://[::]/hook" =
      some ⟨"http:", "[::]", "http://[::]/hook"⟩ := by
    decide +kernel
  exact guard_exact_iff misjudgedParser hparse (.inr rfl) (by decide +kernel)

/-- The guard accepts the first four of these URLs, and refuses the last two: it decides none of
them exactly. -/
theorem guard_not_exact :
    ¬ ∃ url ∈ misjudgedUrls,
      ((∃ e, assertPublicWebhookUrl misjudgedParser url.1 = .error e) ↔ url.2.Internal) := by
  have hparsed : ∀ url ∈ misjudgedUrls, misjudgedParser.parse url.1 =
      some ⟨"http:", String.ofList url.2.chars, url.1⟩ := by decide +kernel
  have hwrong : ∀ url ∈ misjudgedUrls,
      ¬ (isBlockedHostname url.2.hostname = true ↔ url.2.Internal) := by decide +kernel
  rintro ⟨url, hurl, hexact⟩
  rw [refused_iff misjudgedParser (hparsed url hurl) (.inr rfl) String.toList_ofList] at hexact
  exact hwrong url hurl hexact

end Backend

end InvoiceFi
