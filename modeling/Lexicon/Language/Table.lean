import Lexicon.Text.Basic

/-!
# The language table

Each language has a two-letter code of ISO 639-1, the names that dictionaries give it, and for most
a Windows locale identifier. Names are folded: small letters and numbers only.
-/

namespace Lexicon

/-- A language. -/
structure Language where
  /-- The two-letter code. -/
  code : Text
  /-- The folded names. -/
  names : List Text
  /-- The Windows locale identifier. -/
  locale : Option Nat
  deriving DecidableEq, Repr

namespace Language

/-- A row of the table. -/
def row (code : String) (names : List String) (locale : Option Nat) : Language :=
  ⟨code.toList, names.map String.toList, locale⟩

/-- The languages, in the order in which they are looked up. -/
def all : List Language :=
  [row "en" ["english"] (some 1033),
   row "ru" ["russian"] (some 1049),
   row "de" ["german"] (some 1031),
   row "fr" ["french"] (some 1036),
   row "es" ["spanish"] (some 1034),
   row "it" ["italian"] (some 1040),
   row "nl" ["dutch"] (some 1043),
   row "pt" ["portuguese"] (some 2070),
   row "pl" ["polish"] (some 1045),
   row "uk" ["ukrainian"] (some 1058),
   row "be" ["belarusian", "byelorussian", "belarusan"] (some 1059),
   row "bg" ["bulgarian"] (some 1026),
   row "cs" ["czech"] (some 1029),
   row "sk" ["slovak"] (some 1051),
   row "sl" ["slovenian", "slovene"] (some 1060),
   row "hr" ["croatian"] (some 1050),
   row "sr" ["serbian"] (some 3098),
   row "mk" ["macedonian"] (some 1071),
   row "da" ["danish"] (some 1030),
   row "no" ["norwegian", "norwegianbokmal", "norwegiannynorsk"] (some 1044),
   row "sv" ["swedish"] (some 1053),
   row "fi" ["finnish"] (some 1035),
   row "is" ["icelandic"] (some 1039),
   row "et" ["estonian"] (some 1061),
   row "lv" ["latvian"] (some 1062),
   row "lt" ["lithuanian"] (some 1063),
   row "hu" ["hungarian"] (some 1038),
   row "ro" ["romanian"] (some 1048),
   row "el" ["greek", "moderngreek"] (some 1032),
   row "la" ["latin"] none,
   row "eo" ["esperanto"] none,
   row "ga" ["irish"] none,
   row "cy" ["welsh"] none,
   row "ca" ["catalan"] (some 1027),
   row "eu" ["basque"] (some 1069),
   row "sq" ["albanian"] (some 1052),
   row "tr" ["turkish"] (some 1055),
   row "az" ["azeri", "azerbaijani"] (some 1068),
   row "kk" ["kazakh"] (some 1087),
   row "tt" ["tatar"] (some 1092),
   row "ky" ["kirghiz", "kyrgyz"] none,
   row "uz" ["uzbek"] none,
   row "tk" ["turkmen"] none,
   row "tg" ["tajik"] none,
   row "ba" ["bashkir"] none,
   row "cv" ["chuvash"] none,
   row "mn" ["mongolian"] none,
   row "ka" ["georgian"] (some 1079),
   row "hy" ["armenian"] (some 1067),
   row "he" ["hebrew"] (some 1037),
   row "ar" ["arabic"] (some 1025),
   row "fa" ["persian", "farsi"] (some 1065),
   row "hi" ["hindi"] (some 1081),
   row "th" ["thai"] (some 1054),
   row "vi" ["vietnamese"] (some 1066),
   row "id" ["indonesian"] (some 1057),
   row "af" ["afrikaans"] (some 1078),
   row "zh" ["chinese"] (some 2052),
   row "ja" ["japanese"] (some 1041),
   row "ko" ["korean"] (some 1042)]

end Language

end Lexicon
