import FlatTree.Url.Service
import FlatTree.Proofs.Decode.Outcome
import FlatTree.Proofs.Url.Form

/-!
# What is in an authority

The authority of a URL goes on until a slash, a question mark or a number sign, and also a
backslash ends it. Whatever URL names a service, none of these comes into the authority of
its normal form: not with a user name or a password, in which they are escaped, and not
with a host, whose labels may show none of them, in whatever way they are written.

- `Punycode.mem_encode`, `Punycode.mem_of_decode?`: the characters of an encoded label.
- `ServiceUrl.Inside`: texts in which no authority ends.
- `Host.inside_render`: the normal form of a host is one.
- `ServiceUrl.Normal`: what a service is like that was read from a URL.
- `ServiceUrl.Normal.split?_append`: a URL of a service splits where it was put together.
-/

namespace FlatTree

/-! ## Characters of Punycode -/

namespace Punycode

/-- A digit of either case. -/
def IsDigit (c : Char) : Prop := (digitValue? c).isSome

instance : DecidablePred IsDigit := fun _ => inferInstanceAs (Decidable (_ = true))

theorem isDigit_digit : ∀ n < 36, IsDigit (digit n) := by decide

theorem isDigit_of_mem_encodeDistance {bias k distance : Nat} {c : Char}
    (h : c ∈ encodeDistance bias k distance) : IsDigit c := by
  fun_induction encodeDistance bias k distance with
  | case1 k distance t hlt =>
    have hle := threshold_le k bias
    rw [List.mem_singleton.mp h]
    exact isDigit_digit _ (by omega)
  | case2 k distance t hge ih =>
    have hle : t ≤ 26 := threshold_le k bias
    have hmod := Nat.mod_lt (distance - t) (show 0 < 36 - t by omega)
    rcases List.mem_cons.mp h with rfl | h
    · exact isDigit_digit _ (by omega)
    · exact ih h

theorem mem_pass {basic point : Nat} {e : Encoder} {first c : Char}
    (h : c ∈ (e.pass basic point first).out) : c ∈ e.out ∨ IsDigit c := by
  rw [Encoder.pass] at h
  split at h
  · exact .inl h
  · split at h
    · exact (List.mem_append.mp h).imp_right isDigit_of_mem_encodeDistance
    · exact .inl h

theorem mem_foldl_pass {basic point : Nat} {c : Char} {label : List Char} :
    ∀ {e : Encoder}, c ∈ (label.foldl (Encoder.pass basic point) e).out →
      c ∈ e.out ∨ IsDigit c := by
  induction label with
  | nil => exact .inl
  | cons first rest ih =>
    intro e h
    rcases ih h with h | hdigit
    · exact mem_pass h
    · exact .inr hdigit

theorem mem_insertPoints {label : List Char} {basic : Nat} {c : Char} {points : List Nat} :
    ∀ {next : Nat} {e : Encoder}, c ∈ (insertPoints label basic points next e).out →
      c ∈ e.out ∨ IsDigit c := by
  induction points with
  | nil => exact .inl
  | cons point rest ih =>
    intro next e h
    rw [insertPoints] at h
    rcases ih h with h | hdigit
    · exact mem_foldl_pass (e := { e with delta := e.delta + (point - next) * (e.placed + 1) }) h
    · exact .inr hdigit

/-- An encoding has ASCII characters of the label, the hyphen after them, and digits. -/
theorem mem_encode {label : List Char} {c : Char} (h : c ∈ encode label) :
    c ∈ label ∨ c = '-' ∨ IsDigit c := by
  rcases mem_insertPoints h with hstart | hdigit
  · dsimp only at hstart
    split at hstart
    · cases hstart
    · rcases List.mem_append.mp hstart with hbasic | hhyphen
      · exact .inl (List.mem_of_mem_filter hbasic)
      · exact .inr (.inl (List.mem_singleton.mp hhyphen))
  · exact .inr (.inr hdigit)

/-- What is read of a distance are digits. -/
theorem isDigit_of_decodePosition? {bias k weight position p : Nat} {cs rest : List Char}
    (h : decodePosition? bias k weight position cs = some (p, rest)) :
    ∀ c ∈ cs, IsDigit c ∨ c ∈ rest := by
  induction cs generalizing k weight position with
  | nil => cases h
  | cons first cs ih =>
    rw [decodePosition?] at h
    split at h
    · cases h
    · next value hvalue =>
      have hfirst : IsDigit first := by rw [IsDigit, hvalue]; rfl
      dsimp only at h
      intro c hc
      rcases List.mem_cons.mp hc with rfl | hc
      · exact .inl hfirst
      · split at h
        · cases h
        · split at h
          · cases h
            exact .inr hc
          · split at h
            · cases h
            · exact ih h c hc

/-- A label that is read has the characters that it starts with, and all the rest are digits. -/
theorem mem_insertDecoded? {label digits decoded : List Char} {point position bias : Nat}
    {first : Bool} (h : insertDecoded? label point position bias first digits = some decoded) :
    (∀ c ∈ label, c ∈ decoded) ∧ ∀ c ∈ digits, IsDigit c := by
  fun_induction insertDecoded? label point position bias first digits with
  | case1 label =>
    cases h
    exact ⟨fun _ hc => hc, fun _ hc => by cases hc⟩
  | case2 => cases h
  | case3 label point position bias first c cs total rest hread points next place hpoint ih =>
    obtain ⟨hlabel, hrest⟩ := ih h
    refine ⟨fun d hd => hlabel d ?_, fun d hd => ?_⟩
    · rw [← List.take_append_drop place label] at hd
      rw [List.mem_append, List.mem_cons]
      exact (List.mem_append.mp hd).imp_right .inr
    · exact (isDigit_of_decodePosition? hread d hd).elim id (hrest d)
  | case4 => cases h

/-- What stands before the digits of an encoding is nothing, or ends with a hyphen. -/
theorem exists_append_digits (encoded : List Char) :
    ∃ before, encoded = before ++ (encoded.reverse.takeWhile (· ≠ '-')).reverse ∧
      ∀ c ∈ before, c ∈ before.dropLast ∨ c = '-' := by
  have hparts := List.takeWhile_append_dropWhile (p := (· ≠ '-')) (l := encoded.reverse)
  have hstop := List.head?_dropWhile_not (· ≠ '-') encoded.reverse
  refine ⟨(encoded.reverse.dropWhile (· ≠ '-')).reverse, ?_, ?_⟩
  · rw [← List.reverse_append, hparts, List.reverse_reverse]
  · cases hrest : encoded.reverse.dropWhile (· ≠ '-') with
    | nil => exact fun c hc => by cases hc
    | cons first rest =>
      rw [hrest] at hstop
      have hfirst : first = '-' := by simpa using hstop
      intro c hc
      rw [List.reverse_cons, List.dropLast_concat]
      rw [List.reverse_cons, List.mem_append, List.mem_singleton, hfirst] at hc
      exact hc

/-- What is decoded has all that is encoded, other than hyphens and digits. -/
theorem mem_of_decode? {encoded decoded : List Char} (h : decode? encoded = some decoded) :
    ∀ c ∈ encoded, c ∈ decoded ∨ c = '-' ∨ IsDigit c := by
  obtain ⟨before, hparts, hbefore⟩ := exists_append_digits encoded
  have hbasic : encoded.take (encoded.length -
      (encoded.reverse.takeWhile (· ≠ '-')).reverse.length - 1) = before.dropLast := by
    generalize (encoded.reverse.takeWhile (· ≠ '-')).reverse = digits at hparts
    rw [hparts, List.length_append, Nat.add_sub_cancel, List.take_append_of_le_length (by omega),
      List.dropLast_eq_take]
  rw [decode?, hbasic] at h
  intro c hc
  split at h
  · exact .inr (.inr ((mem_insertDecoded? h).2 c hc))
  · obtain ⟨hlabel, hdigits⟩ := mem_insertDecoded? h
    rw [hparts] at hc
    rcases List.mem_append.mp hc with hc | hc
    · exact (hbefore c hc).imp (hlabel c) .inl
    · exact .inr (.inr (hdigits c hc))

end Punycode

/-! ## Characters that end an authority -/

namespace ServiceUrl

/-- A text in which no authority ends. -/
def Inside (cs : List Char) : Prop := ∀ c ∈ cs, endsAuthority true c = false

instance (cs : List Char) : Decidable (Inside cs) :=
  List.decidableBAll (fun c => endsAuthority true c = false) cs

/-- What has a property that no end of an authority has does not end one. -/
theorem endsAuthority_eq_false {P : Char → Prop}
    (hends : ¬ P '/' ∧ ¬ P '?' ∧ ¬ P '#' ∧ ¬ P '\\') {c : Char} (hc : P c) :
    endsAuthority true c = false := by
  obtain ⟨hslash, hquery, hfragment, hbackslash⟩ := hends
  by_contra h
  simp only [Bool.not_eq_false, endsAuthority, Bool.true_and, Bool.or_eq_true, decide_eq_true_eq,
    or_assoc] at h
  rcases h with rfl | rfl | rfl | rfl
  · exact hslash hc
  · exact hquery hc
  · exact hfragment hc
  · exact hbackslash hc

theorem Inside.append {cs more : List Char} (h : Inside cs) (hmore : Inside more) :
    Inside (cs ++ more) :=
  fun c hc => (List.mem_append.mp hc).elim (h c) (hmore c)

theorem inside_nil : Inside [] := fun _ h => by cases h

/-- Texts may be joined by what does not end an authority. -/
theorem inside_intercalate {sep : List Char} (hsep : Inside sep) :
    ∀ {parts : List (List Char)}, (∀ part ∈ parts, Inside part) → Inside (sep.intercalate parts)
  | [], _ => inside_nil
  | [part], h => by
    rw [List.intercalate_singleton]
    exact h part List.mem_cons_self
  | part :: next :: rest, h => by
    rw [List.intercalate_cons_cons]
    refine ((h part List.mem_cons_self).append hsep).append ?_
    exact inside_intercalate hsep fun other hother => h other (List.mem_cons_of_mem _ hother)

theorem inside_of_isDigit {c : Char} (h : Punycode.IsDigit c) : endsAuthority true c = false :=
  endsAuthority_eq_false (by decide) h

end ServiceUrl

open ServiceUrl (Inside endsAuthority)

namespace Domain

/-- A character that a name may hold ends no authority. -/
theorem endsAuthority_of_not_isForbidden {c : Char} (h : isForbidden c = false) :
    endsAuthority true c = false :=
  ServiceUrl.endsAuthority_eq_false (P := fun c => isForbidden c = false)
    (by simp [isForbidden]) h

theorem inside_of_isValidLabel {shown : List Char} (hvalid : isValidLabel shown) :
    Inside shown := by
  intro c hc
  simp only [isValidLabel, Bool.and_eq_true, Bool.not_eq_true'] at hvalid
  exact endsAuthority_of_not_isForbidden
    (Bool.eq_false_iff.mpr (List.any_eq_false.mp hvalid.1.1.1 c hc))

/-- No authority ends in an encoded label, as it has characters of the label, hyphens and digits. -/
theorem inside_marked {shown encoded : List Char} (hshown : Inside shown)
    (h : ∀ c ∈ encoded, c ∈ shown ∨ c = '-' ∨ Punycode.IsDigit c) :
    Inside (marker ++ encoded) := by
  have hmarker : Inside marker := by decide
  refine hmarker.append fun c hc => ?_
  rcases h c hc with hc | rfl | hdigit
  · exact hshown c hc
  · rfl
  · exact ServiceUrl.inside_of_isDigit hdigit

/-- No authority ends in the ASCII form of a label, whether it was encoded or not. -/
theorem inside_labelToAscii {label shown : List Char} (h : shown? label = some shown)
    (hvalid : isValidLabel shown) : Inside (labelToAscii label) := by
  have hshown := inside_of_isValidLabel hvalid
  rw [shown?] at h
  split at h
  · next hprefix =>
    -- The label is encoded already, and stays as it is.
    obtain ⟨encoded, rfl⟩ := List.isPrefixOf_iff_prefix.mp hprefix
    rw [List.drop_left] at h
    dsimp only at h
    split at h
    · next hencoded =>
      simp only [Bool.and_eq_true] at hencoded
      have hascii : isAscii (marker ++ encoded) := by
        rw [isAscii, List.all_append, Bool.and_eq_true]
        exact ⟨by decide, hencoded.1.1⟩
      obtain ⟨hdecode, -⟩ := Option.filter_eq_some_iff.mp h
      rw [labelToAscii, if_pos hascii]
      exact inside_marked hshown (Punycode.mem_of_decode? hdecode)
    · cases h
  · cases h
    rw [labelToAscii]
    split
    · exact hshown
    · exact inside_marked hshown fun c hc => Punycode.mem_encode hc

theorem exists_of_mem_mapM {α β : Type} {f : α → Option β} {a : α} :
    ∀ {as : List α} {bs : List β}, as.mapM f = some bs → a ∈ as → ∃ b ∈ bs, f a = some b
  | first :: rest, _, h, ha => by
    rw [List.mapM_cons] at h
    obtain ⟨b, hb, h⟩ := Option.bind_eq_some_iff.mp h
    obtain ⟨others, hothers, h⟩ := Option.bind_eq_some_iff.mp h
    cases h
    rcases List.mem_cons.mp ha with rfl | ha
    · exact ⟨b, List.mem_cons_self, hb⟩
    · obtain ⟨c, hc, hfc⟩ := exists_of_mem_mapM hothers ha
      exact ⟨c, List.mem_cons_of_mem _ hc, hfc⟩

/-- A name in ASCII has no character that ends an authority. -/
theorem inside_of_toAscii? {text name : String} (h : toAscii? text = some name) :
    Inside name.toList := by
  rw [toAscii?] at h
  obtain ⟨mapped, -, h⟩ := Option.bind_eq_some_iff.mp h
  obtain ⟨shown, hshown, h⟩ := Option.bind_eq_some_iff.mp h
  split at h
  · next hvalid =>
    cases h
    rw [Bool.and_eq_true] at hvalid
    rw [String.toList_ofList]
    refine ServiceUrl.inside_intercalate (by decide) fun part hpart => ?_
    obtain ⟨label, hlabel, rfl⟩ := List.mem_map.mp hpart
    obtain ⟨s, hs, hlabelShown⟩ := exists_of_mem_mapM hshown hlabel
    exact inside_labelToAscii hlabelShown (List.all_eq_true.mp hvalid.1 s hs)
  · cases h

end Domain

namespace Host

theorem exists_digitChar_of_mem_toDigits {b : Nat} (hb : 1 < b) {c : Char} (n : Nat)
    (h : c ∈ Nat.toDigits b n) : ∃ d, c = Nat.digitChar d := by
  induction n using Nat.strongRecOn with
  | ind n ih =>
    rw [Nat.toDigits_eq_if hb] at h
    split at h
    · exact ⟨n, List.mem_singleton.mp h⟩
    · next hge =>
      rcases List.mem_append.mp h with h | h
      · exact ih (n / b) (Nat.div_lt_self (by omega) hb) h
      · exact ⟨n % b, List.mem_singleton.mp h⟩

/-- Digits of a number end no authority. -/
theorem inside_toDigits {b : Nat} (hb : 1 < b) (n : Nat) : Inside (Nat.toDigits b n) := by
  intro c hc
  refine ServiceUrl.endsAuthority_eq_false (P := fun c => ∃ d, c = Nat.digitChar d) ?_
    (exists_digitChar_of_mem_toDigits hb n hc)
  refine ⟨?_, ?_, ?_, ?_⟩ <;> rintro ⟨d, hd⟩ <;> exact Nat.digitChar_ne _ (by decide) hd.symm

theorem inside_toString (n : Nat) : Inside (toString n).toList := by
  show Inside n.repr.toList
  rw [Nat.toList_repr]
  exact inside_toDigits (by decide) n

theorem inside_hexPieces (pieces : List Nat) : Inside (hexPieces pieces).toList := by
  rw [hexPieces, String.toList_intercalate, List.map_map]
  refine ServiceUrl.inside_intercalate (by decide) fun part hpart => ?_
  obtain ⟨p, -, rfl⟩ := List.mem_map.mp hpart
  show Inside (String.ofList _).toList
  rw [String.toList_ofList]
  exact inside_toDigits (by decide) p

theorem inside_render_ipv4 (address : Nat) : Inside (ipv4 address).render.toList := by
  rw [render, String.toList_intercalate, List.map_map]
  refine ServiceUrl.inside_intercalate (by decide) fun part hpart => ?_
  obtain ⟨unit, -, rfl⟩ := List.mem_map.mp hpart
  exact inside_toString _

theorem inside_render_ipv6 (pieces : List Nat) : Inside (ipv6 pieces).render.toList := by
  have hopen : Inside "[".toList := by decide
  have hgap : Inside "::".toList := by decide
  have hclose : Inside "]".toList := by decide
  rw [render]
  split
  · rw [String.toList_append, String.toList_append]
    exact (hopen.append (inside_hexPieces _)).append hclose
  · simp only [String.toList_append]
    exact (((hopen.append (inside_hexPieces _)).append hgap).append (inside_hexPieces _)).append
      hclose

/-- The normal form of a host that was read has nothing that ends an authority. -/
theorem inside_render {text : List Char} {host : Host} (h : parse text = .ok host) :
    Inside host.render.toList := by
  cases host with
  | ipv4 address => exact inside_render_ipv4 address
  | ipv6 pieces => exact inside_render_ipv6 pieces
  | domain name =>
    rw [parse] at h
    split at h
    · cases h
    · next inner _ => cases hpieces : parseIpv6 inner <;> rw [hpieces] at h <;> cases h
    · split at h
      · cases h
      · next decoded _ =>
        split at h
        · cases h
        · next found hfound =>
          split at h
          · cases h
          · split at h
            · cases haddress : parseIpv4 found.toList <;> rw [haddress] at h <;> cases h
            · cases h
              exact Domain.inside_of_toAscii? hfound

end Host

namespace ServiceUrl

theorem inside_encode (text : String) : Inside (Percent.encode isUserinfoByte text) := by
  intro c hc
  refine endsAuthority_eq_false (P := fun c => isUserinfoByte c.toNat.toUInt8 ∨ c = '%' ∨
    Percent.isAlphanumeric c.toNat.toUInt8) (by decide +kernel) (Percent.mem_encode hc)

theorem inside_renderUserinfo (info : List Char) : Inside (renderUserinfo info).toList := by
  have hcolon : Inside ":".toList := by decide
  have hat : Inside "@".toList := by decide
  rw [renderUserinfo]
  split
  · exact inside_nil
  · simp only [String.toList_append, String.toList_ofList]
    refine ((inside_encode _).append ?_).append hat
    split
    · exact inside_nil
    · simp only [String.toList_append, String.toList_ofList]
      exact hcolon.append (inside_encode _)

/-- What a service is like that was read from a URL. -/
structure Normal (service : ServiceUrl) : Prop where
  scheme : service.scheme = "http" ∨ service.scheme = "https"
  userinfo : Inside service.userinfo.toList
  host : Inside service.host.render.toList

/-- What is read of a URL with a known scheme. -/
theorem parseKnown_eq_ok {scheme : String} {rest path : List Char} {service : ServiceUrl}
    (h : parseKnown scheme rest = .ok (service, path)) :
    service.scheme = scheme ∧ (∃ info, service.userinfo = renderUserinfo info) ∧
      ∃ text, Host.parse text = .ok service.host := by
  obtain ⟨⟨info, hostText, portText, after⟩, -, h⟩ := bind_eq_ok.mp h
  dsimp only at h
  split at h
  · cases h
  · obtain ⟨host, hhost, h⟩ := bind_eq_ok.mp h
    obtain ⟨port, -, h⟩ := bind_eq_ok.mp h
    cases h
    exact ⟨rfl, ⟨_, rfl⟩, hostText, hhost⟩

theorem normal_of_parse {text : String} {service : ServiceUrl} (h : parse text = .ok service) :
    service.Normal := by
  rw [parse] at h
  split at h
  · cases h
  · next scheme rest hscheme =>
    split at h
    · obtain ⟨_, -, h⟩ := bind_eq_ok.mp h
      cases h
    · split at h
      · obtain ⟨_, -, h⟩ := bind_eq_ok.mp h
        cases h
      · obtain ⟨⟨url, path⟩, hknown, h⟩ := bind_eq_ok.mp h
        obtain ⟨hscheme, ⟨info, hinfo⟩, hostText, hhost⟩ := parseKnown_eq_ok hknown
        dsimp only at h
        split at h
        · cases h
        · next hhttp =>
          split at h
          · cases h
          · cases h
            refine ⟨?_, hinfo ▸ inside_renderUserinfo info, Host.inside_render hhost⟩
            rw [hscheme]
            by_contra hother
            exact hhttp (not_or.mp hother)

/-- Nothing in the authority of a service ends it. -/
theorem Normal.inside_renderAuthority {service : ServiceUrl} (h : service.Normal) :
    Inside service.renderAuthority.toList := by
  have hcolon : Inside ":".toList := by decide
  rw [renderAuthority, String.toList_append, String.toList_append]
  refine (h.userinfo.append h.host).append ?_
  cases service.port with
  | none => exact inside_nil
  | some port =>
    show Inside (":" ++ toString port).toList
    rw [String.toList_append]
    exact hcolon.append (Host.inside_toString port)

/-- The scheme, the authority and the request target of a URL: what comes before the colon, what
comes after the slashes, and then all up to a fragment. -/
def split? (url : List Char) : Option (List Char × List Char × List Char) :=
  let scheme := url.takeWhile (· ≠ ':')
  match url.drop scheme.length with
  | ':' :: '/' :: '/' :: rest =>
    let authority := rest.takeWhile fun c => !endsAuthority true c
    some (scheme, authority, (rest.drop authority.length).takeWhile (· ≠ '#'))
  | _ => none

/-- **A URL of a service splits where it was put together**, if a path follows the authority and
there is no fragment. -/
theorem Normal.split?_append {service : ServiceUrl} (h : service.Normal) {path : List Char}
    (hpath : '#' ∉ path) :
    split? (service.scheme.toList ++
        ':' :: '/' :: '/' :: (service.renderAuthority.toList ++ '/' :: path)) =
      some (service.scheme.toList, service.renderAuthority.toList, '/' :: path) := by
  have hscheme : service.scheme.toList.all (· ≠ ':') := by
    rcases h.scheme with heq | heq <;> rw [heq] <;> decide
  have hauthority : ∀ c ∈ service.renderAuthority.toList, !endsAuthority true c := by
    intro c hc
    rw [h.inside_renderAuthority c hc]
    rfl
  have hrest : ∀ c ∈ '/' :: path, decide (c ≠ '#') := by
    intro c hc
    refine decide_eq_true ?_
    rintro rfl
    exact (List.mem_cons.mp hc).elim (fun h => by cases h) hpath
  rw [split?, takeWhile_append_cons (List.all_eq_true.mp hscheme) rfl, List.drop_left]
  show some (_, (_ ++ '/' :: path).takeWhile (fun c => !endsAuthority true c), _) = _
  rw [takeWhile_append_cons hauthority rfl, List.drop_left, List.takeWhile_eq_self_iff.mpr hrest]

end ServiceUrl

end FlatTree
