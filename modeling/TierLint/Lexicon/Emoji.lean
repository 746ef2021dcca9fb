import TierLint.Text
import TierLint.Unicode.CodeRange

/-!
# Emoji

A text holds an emoji if one of its characters is an emoji by itself, if a digit,
`#` or `*` has its coloured form or stands on a key, or if two regional indicators
spell the code of a flag. Every other emoji sequence begins with one of these.
-/

set_option autoImplicit false
set_option maxRecDepth 8000

namespace TierLint

namespace Emoji

open Unicode

/-- The characters that are emoji by themselves (Unicode 17.0). -/
def singleRanges : List CodeRange :=
  [⟨0xA9, 0xA9⟩, ⟨0xAE, 0xAE⟩, ⟨0x203C, 0x203C⟩, ⟨0x2049, 0x2049⟩, ⟨0x2122, 0x2122⟩,
  ⟨0x2139, 0x2139⟩, ⟨0x2194, 0x2199⟩, ⟨0x21A9, 0x21AA⟩, ⟨0x231A, 0x231B⟩, ⟨0x2328, 0x2328⟩,
  ⟨0x23CF, 0x23CF⟩, ⟨0x23E9, 0x23F3⟩, ⟨0x23F8, 0x23FA⟩, ⟨0x24C2, 0x24C2⟩, ⟨0x25AA, 0x25AB⟩,
  ⟨0x25B6, 0x25B6⟩, ⟨0x25C0, 0x25C0⟩, ⟨0x25FB, 0x25FE⟩, ⟨0x2600, 0x2604⟩, ⟨0x260E, 0x260E⟩,
  ⟨0x2611, 0x2611⟩, ⟨0x2614, 0x2615⟩, ⟨0x2618, 0x2618⟩, ⟨0x261D, 0x261D⟩, ⟨0x2620, 0x2620⟩,
  ⟨0x2622, 0x2623⟩, ⟨0x2626, 0x2626⟩, ⟨0x262A, 0x262A⟩, ⟨0x262E, 0x262F⟩, ⟨0x2638, 0x263A⟩,
  ⟨0x2640, 0x2640⟩, ⟨0x2642, 0x2642⟩, ⟨0x2648, 0x2653⟩, ⟨0x265F, 0x2660⟩, ⟨0x2663, 0x2663⟩,
  ⟨0x2665, 0x2666⟩, ⟨0x2668, 0x2668⟩, ⟨0x267B, 0x267B⟩, ⟨0x267E, 0x267F⟩, ⟨0x2692, 0x2697⟩,
  ⟨0x2699, 0x2699⟩, ⟨0x269B, 0x269C⟩, ⟨0x26A0, 0x26A1⟩, ⟨0x26A7, 0x26A7⟩, ⟨0x26AA, 0x26AB⟩,
  ⟨0x26B0, 0x26B1⟩, ⟨0x26BD, 0x26BE⟩, ⟨0x26C4, 0x26C5⟩, ⟨0x26C8, 0x26C8⟩, ⟨0x26CE, 0x26CF⟩,
  ⟨0x26D1, 0x26D1⟩, ⟨0x26D3, 0x26D4⟩, ⟨0x26E9, 0x26EA⟩, ⟨0x26F0, 0x26F5⟩, ⟨0x26F7, 0x26FA⟩,
  ⟨0x26FD, 0x26FD⟩, ⟨0x2702, 0x2702⟩, ⟨0x2705, 0x2705⟩, ⟨0x2708, 0x270D⟩, ⟨0x270F, 0x270F⟩,
  ⟨0x2712, 0x2712⟩, ⟨0x2714, 0x2714⟩, ⟨0x2716, 0x2716⟩, ⟨0x271D, 0x271D⟩, ⟨0x2721, 0x2721⟩,
  ⟨0x2728, 0x2728⟩, ⟨0x2733, 0x2734⟩, ⟨0x2744, 0x2744⟩, ⟨0x2747, 0x2747⟩, ⟨0x274C, 0x274C⟩,
  ⟨0x274E, 0x274E⟩, ⟨0x2753, 0x2755⟩, ⟨0x2757, 0x2757⟩, ⟨0x2763, 0x2764⟩, ⟨0x2795, 0x2797⟩,
  ⟨0x27A1, 0x27A1⟩, ⟨0x27B0, 0x27B0⟩, ⟨0x27BF, 0x27BF⟩, ⟨0x2934, 0x2935⟩, ⟨0x2B05, 0x2B07⟩,
  ⟨0x2B1B, 0x2B1C⟩, ⟨0x2B50, 0x2B50⟩, ⟨0x2B55, 0x2B55⟩, ⟨0x3030, 0x3030⟩, ⟨0x303D, 0x303D⟩,
  ⟨0x3297, 0x3297⟩, ⟨0x3299, 0x3299⟩, ⟨0x1F004, 0x1F004⟩, ⟨0x1F0CF, 0x1F0CF⟩, ⟨0x1F170, 0x1F171⟩,
  ⟨0x1F17E, 0x1F17F⟩, ⟨0x1F18E, 0x1F18E⟩, ⟨0x1F191, 0x1F19A⟩, ⟨0x1F201, 0x1F202⟩,
  ⟨0x1F21A, 0x1F21A⟩, ⟨0x1F22F, 0x1F22F⟩, ⟨0x1F232, 0x1F23A⟩, ⟨0x1F250, 0x1F251⟩,
  ⟨0x1F300, 0x1F321⟩, ⟨0x1F324, 0x1F393⟩, ⟨0x1F396, 0x1F397⟩, ⟨0x1F399, 0x1F39B⟩,
  ⟨0x1F39E, 0x1F3F0⟩, ⟨0x1F3F3, 0x1F3F5⟩, ⟨0x1F3F7, 0x1F3FA⟩, ⟨0x1F400, 0x1F4FD⟩,
  ⟨0x1F4FF, 0x1F53D⟩, ⟨0x1F549, 0x1F54E⟩, ⟨0x1F550, 0x1F567⟩, ⟨0x1F56F, 0x1F570⟩,
  ⟨0x1F573, 0x1F57A⟩, ⟨0x1F587, 0x1F587⟩, ⟨0x1F58A, 0x1F58D⟩, ⟨0x1F590, 0x1F590⟩,
  ⟨0x1F595, 0x1F596⟩, ⟨0x1F5A4, 0x1F5A5⟩, ⟨0x1F5A8, 0x1F5A8⟩, ⟨0x1F5B1, 0x1F5B2⟩,
  ⟨0x1F5BC, 0x1F5BC⟩, ⟨0x1F5C2, 0x1F5C4⟩, ⟨0x1F5D1, 0x1F5D3⟩, ⟨0x1F5DC, 0x1F5DE⟩,
  ⟨0x1F5E1, 0x1F5E1⟩, ⟨0x1F5E3, 0x1F5E3⟩, ⟨0x1F5E8, 0x1F5E8⟩, ⟨0x1F5EF, 0x1F5EF⟩,
  ⟨0x1F5F3, 0x1F5F3⟩, ⟨0x1F5FA, 0x1F64F⟩, ⟨0x1F680, 0x1F6C5⟩, ⟨0x1F6CB, 0x1F6D2⟩,
  ⟨0x1F6D5, 0x1F6D8⟩, ⟨0x1F6DC, 0x1F6E5⟩, ⟨0x1F6E9, 0x1F6E9⟩, ⟨0x1F6EB, 0x1F6EC⟩,
  ⟨0x1F6F0, 0x1F6F0⟩, ⟨0x1F6F3, 0x1F6FC⟩, ⟨0x1F7E0, 0x1F7EB⟩, ⟨0x1F7F0, 0x1F7F0⟩,
  ⟨0x1F90C, 0x1F93A⟩, ⟨0x1F93C, 0x1F945⟩, ⟨0x1F947, 0x1F9AF⟩, ⟨0x1F9B4, 0x1F9FF⟩,
  ⟨0x1FA70, 0x1FA7C⟩, ⟨0x1FA80, 0x1FA8A⟩, ⟨0x1FA8E, 0x1FAC6⟩, ⟨0x1FAC8, 0x1FAC8⟩,
  ⟨0x1FACD, 0x1FADC⟩, ⟨0x1FADF, 0x1FAEA⟩, ⟨0x1FAEF, 0x1FAF8⟩]

/-- The codes of flags (Unicode 17.0). -/
def flagCodes : List String :=
  ["AC", "AD", "AE", "AF", "AG", "AI", "AL", "AM", "AO", "AQ", "AR", "AS", "AT", "AU", "AW",
  "AX", "AZ", "BA", "BB", "BD", "BE", "BF", "BG", "BH", "BI", "BJ", "BL", "BM", "BN", "BO", "BQ",
  "BR", "BS", "BT", "BV", "BW", "BY", "BZ", "CA", "CC", "CD", "CF", "CG", "CH", "CI", "CK", "CL",
  "CM", "CN", "CO", "CP", "CQ", "CR", "CU", "CV", "CW", "CX", "CY", "CZ", "DE", "DG", "DJ", "DK",
  "DM", "DO", "DZ", "EA", "EC", "EE", "EG", "EH", "ER", "ES", "ET", "EU", "FI", "FJ", "FK", "FM",
  "FO", "FR", "GA", "GB", "GD", "GE", "GF", "GG", "GH", "GI", "GL", "GM", "GN", "GP", "GQ", "GR",
  "GS", "GT", "GU", "GW", "GY", "HK", "HM", "HN", "HR", "HT", "HU", "IC", "ID", "IE", "IL", "IM",
  "IN", "IO", "IQ", "IR", "IS", "IT", "JE", "JM", "JO", "JP", "KE", "KG", "KH", "KI", "KM", "KN",
  "KP", "KR", "KW", "KY", "KZ", "LA", "LB", "LC", "LI", "LK", "LR", "LS", "LT", "LU", "LV", "LY",
  "MA", "MC", "MD", "ME", "MF", "MG", "MH", "MK", "ML", "MM", "MN", "MO", "MP", "MQ", "MR", "MS",
  "MT", "MU", "MV", "MW", "MX", "MY", "MZ", "NA", "NC", "NE", "NF", "NG", "NI", "NL", "NO", "NP",
  "NR", "NU", "NZ", "OM", "PA", "PE", "PF", "PG", "PH", "PK", "PL", "PM", "PN", "PR", "PS", "PT",
  "PW", "PY", "QA", "RE", "RO", "RS", "RU", "RW", "SA", "SB", "SC", "SD", "SE", "SG", "SH", "SI",
  "SJ", "SK", "SL", "SM", "SN", "SO", "SR", "SS", "ST", "SV", "SX", "SY", "SZ", "TA", "TC", "TD",
  "TF", "TG", "TH", "TJ", "TK", "TL", "TM", "TN", "TO", "TR", "TT", "TV", "TW", "TZ", "UA", "UG",
  "UM", "UN", "US", "UY", "UZ", "VA", "VC", "VE", "VG", "VI", "VN", "VU", "WF", "WS", "XK", "YE",
  "YT", "ZA", "ZM", "ZW"]

/-- Asks for the coloured form of the character in front. -/
def variationSelector : Char := '\ufe0f'

/-- Puts the character in front on a key. -/
def keycap : Char := '\u20e3'

/-- The character can stand on a key. -/
def isKey (c : Char) : Bool := c == '#' || c == '*' || c.isDigit

/-- The letter that a regional indicator stands for. -/
def indicatorLetter? (c : Char) : Option Char :=
  if 0x1F1E6 ≤ c.toNat && c.toNat ≤ 0x1F1FF then some (Char.ofNat (c.toNat - 0x1F1E6 + 'A'.toNat))
  else none

/-- Two regional indicators spell the code of a flag. -/
def isFlag (c d : Char) : Bool :=
  match indicatorLetter? c, indicatorLetter? d with
  | some x, some y => flagCodes.any fun code => code.toList == [x, y]
  | _, _ => false

/-- The coloured form of a character that can stand on a key. -/
def isColoredKey : Text → Bool
  | [c, d] => isKey c && d == variationSelector
  | _ => false

/-- A character on a key; the selector in front of the keycap may be missing. -/
def isKeycapSequence : Text → Bool
  | [c, d] => isKey c && d == keycap
  | [c, d, e] => isKey c && d == variationSelector && e == keycap
  | _ => false

/-- The text is an emoji of one character, a digit, `#` or `*` that is made one, or a flag. -/
def isEntry (t : Text) : Bool :=
  match t with
  | [c] => covers singleRanges c.toNat
  | [c, d] => isColoredKey t || isKeycapSequence t || isFlag c d
  | _ => isKeycapSequence t

/-- The character makes an emoji of some ASCII characters in front of it. -/
def presents (c : Char) : Bool := c == variationSelector || c == keycap

/-- Some entry of one to three characters begins the text. ASCII characters only
count in front of a variation selector or a keycap. -/
def startsEntry (isEntry : Text → Bool) : Text → Bool
  | [] => false
  | c :: rest =>
    (128 ≤ c.toNat || Text.startsBy presents rest)
      && [1, 2, 3].any fun n => isEntry ((c :: rest).take n)

/-- The text holds an entry of one to three characters. -/
def occursBy (isEntry : Text → Bool) : Text → Bool
  | [] => false
  | c :: rest => startsEntry isEntry (c :: rest) || occursBy isEntry rest

/-- The text holds an emoji. -/
def occurs (t : Text) : Bool := occursBy isEntry t

end Emoji

end TierLint
