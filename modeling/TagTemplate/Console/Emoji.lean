import TagTemplate.Text.Blank
import TagTemplate.Text.Case
import TagTemplate.Text.Split

/-!
# Emoji

A name between colons stands for an emoji. The name may end in `-text` or `-emoji`, which asks for
one of the two ways to show it. A name that is none stays as it is, with its colons.
-/

namespace TagTemplate.Console

def emojiNames : List String :=
  ["+1 👍 -1 👎 100 💯 1234 🔢 8ball 🎱 __1 👎 a 🅰 ab 🆎 abacus 🧮 abc 🔤 abcd 🔡 accept 🉑 adult 🧑 alien 👽",
   "alien_monster 👾 anchor ⚓ angel 👼 anger 💢 angola 🇦🇴 angry 😠 ant 🐜 apple 🍎 aries ♈ art 🎨",
   "aruba 🇦🇼 atm 🏧 axe 🪓 b 🅱 baby 👶 back 🔙 bacon 🥓 badger 🦡 bagel 🥯 bald 🦲 bamboo 🎍 banana 🍌",
   "banjo 🪕 bank 🏦 barber 💈 basket 🧺 bat 🦇 bath 🛀 bear 🐻 bed 🛏 bee 🐝 beer 🍺 beers 🍻 beetle 🐞",
   "belize 🇧🇿 bell 🔔 benin 🇧🇯 bento 🍱 bhutan 🇧🇹 bike 🚲 bikini 👙 bird 🐦 blue_heart 💙 blush 😊 boar 🐗",
   "boat ⛵ bomb 💣 bone 🦴 book 📖 bookmark 🔖 books 📚 boom 💥 boot 👢 bow 🙇 boy 👦 brain 🧠 brazil 🇧🇷",
   "bread 🍞 brick 🧱 briefs 🩲 broken_heart 💔 broom 🧹 brunei 🇧🇳 bug 🐛 bulb 💡 bus 🚌 butter 🧈 cactus 🌵",
   "cake 🍰 calendar 📆 camel 🐫 camera 📷 canada 🇨🇦 cancer ♋ candle 🕯 candy 🍬 canoe 🛶 car 🚗 carrot 🥕",
   "castle 🏰 cat 🐱 cat2 🐈 cd 💿 chad 🇹🇩 chains ⛓ chair 🪑 chart 💹 child 🧒 chile 🇨🇱 china 🇨🇳 church ⛪",
   "cinema 🎦 cl 🆑 clamp 🗜 clap 👏 clapping_hands 👏 clock1 🕐 clock2 🕑 clock3 🕒 clock4 🕓 clock5 🕔",
   "clock6 🕕 clock7 🕖 clock8 🕗 clock9 🕘 cloud ☁ clubs ♣ coat 🧥 coffee ☕ coffin ⚰ collision 💥",
   "comet ☄ computer 💻 construction 🚧 cookie 🍪 cool 🆒 cop 👮 corn 🌽 couple 👫 cow 🐮 cow2 🐄 crab 🦀",
   "crayon 🖍 cross_mark ❌ crown 👑 cry 😢 cuba 🇨🇺 cupid 💘 curry 🍛 cyclone 🌀 cyprus 🇨🇾 dagger 🗡",
   "dancer 💃 dango 🍡 dart 🎯 dash 💨 date 📅 deer 🦌 desert 🏜 dizzy 💫 dna 🧬 dog 🐶 dog2 🐕 dollar 💵",
   "dolls 🎎 door 🚪 dove 🕊 dragon 🐉 dress 👗 droplet 💧 drum 🥁 duck 🦆 dvd 📀 e-mail 📧 eagle 🦅 ear 👂",
   "egg 🍳 egypt 🇪🇬 eight 8️⃣ elf 🧝 email ✉ end 🔚 envelope ✉ euro 💶 ewe 🐑 exclamation ❗",
   "exclamation_mark ❗ eye 👁 eyes 👀 fairy 🧚 family 👪 fax 📠 feet 🐾 ferry ⛴ fiji 🇫🇯 fire 🔥 fish 🐟",
   "fist ✊ five 5️⃣ flag_for_france 🇫🇷 flags 🎏 fog 🌫 foggy 🌁 folded_hands 🙏 foot 🦶 four 4️⃣",
   "france 🇫🇷 free 🆓 fries 🍟 frog 🐸 gabon 🇬🇦 gambia 🇬🇲 garlic 🧄 gear ⚙ gem 💎 gemini ♊ genie 🧞",
   "germany 🇩🇪 ghana 🇬🇭 ghost 👻 gift 🎁 girl 👧 gloves 🧤 glowing_star 🌟 goat 🐐 goblin 👺 golf ⛳",
   "golfer 🏌 grapes 🍇 greece 🇬🇷 green_heart 💚 grin 😁 grinning 😀 grinning_face 😀 guam 🇬🇺 guard 💂",
   "guinea 🇬🇳 guitar 🎸 gun 🔫 guyana 🇬🇾 haiti 🇭🇹 hammer 🔨 hand ✋ hankey 💩 heart ❤ heart_eyes 😍",
   "hearts ♥ heavy_check_mark ✔ herb 🌿 high_voltage ⚡ hocho 🔪 hole 🕳 horse 🐴 hot_beverage ☕",
   "hotel 🏨 hourglass ⌛ house 🏠 houses 🏘 hundred_points 💯 hushed 😯 ice 🧊 id 🆔 imp 👿 india 🇮🇳",
   "information ℹ information_source ℹ iphone 📱 iran 🇮🇷 iraq 🇮🇶 israel 🇮🇱 italy 🇮🇹 japan 🗾 jeans 👖",
   "jersey 🇯🇪 jigsaw 🧩 joker 🃏 jordan 🇯🇴 joy 😂 kaaba 🕋 kenya 🇰🇪 key 🔑 kimono 👘 kiss 💋 kite 🪁",
   "knife 🔪 koala 🐨 koko 🈁 kosovo 🇽🇰 kuwait 🇰🇼 label 🏷 laos 🇱🇦 latvia 🇱🇻 leaves 🍃 ledger 📒 leg 🦵",
   "lemon 🍋 leo ♌ libra ♎ libya 🇱🇾 light_bulb 💡 link 🔗 lips 👄 lizard 🦎 llama 🦙 lock 🔒 locked 🔒",
   "loop ➿ m Ⓜ mag 🔍 mage 🧙 magnet 🧲 malawi 🇲🇼 mali 🇲🇱 malta 🇲🇹 man 👨 mango 🥭 mask 😷 mate 🧉 mega 📣",
   "melon 🍈 memo 📝 mens 🚹 merman 🧜‍♂️ metro 🚇 mexico 🇲🇽 moai 🗿 monaco 🇲🇨 monkey 🐒 monkey_face 🐵",
   "moon 🌔 mosque 🕌 mouse 🐭 mouse2 🐁 mouth 👄 moyai 🗿 muscle 💪 mute 🔇 nauru 🇳🇷 nepal 🇳🇵 new 🆕 ng 🆖",
   "niger 🇳🇪 nine 9️⃣ niue 🇳🇺 no_entry ⛔ norway 🇳🇴 nose 👃 notes 🎶 o ⭕ o2 🅾 ocean 🌊 octopus 🐙",
   "oden 🍢 office 🏢 ogre 👹 ok 🆗 om 🕉 oman 🇴🇲 on 🔛 one 1️⃣ onion 🧅 otter 🦦 owl 🦉 ox 🐂 oyster 🦪",
   "package 📦 pager 📟 palau 🇵🇼 panama 🇵🇦 paperclip 📎 parrot 🦜 party_popper 🎉 peach 🍑 pear 🍐 pen 🖊",
   "pencil 📝 penguin 🐧 peru 🇵🇪 phone ☎ pick ⛏ pie 🥧 pig 🐷 pig2 🐖 pile_of_poo 💩 pill 💊 pisces ♓",
   "pistol 🔫 pizza 🍕 poland 🇵🇱 poodle 🐩 poop 💩 potato 🥔 pouch 👝 pound 💷 pray 🙏 prince 🤴 punch 👊",
   "purse 👛 pushpin 📌 qatar 🇶🇦 question ❓ question_mark ❓ rabbit 🐰 radio 📻 rage 😡 rainbow 🌈",
   "raised_hands 🙌 ram 🐏 ramen 🍜 rat 🐀 razor 🪒 red_heart ❤ repeat 🔁 rewind ⏪ ribbon 🎀 rice 🍚",
   "ring 💍 robot 🤖 rocket 🚀 rose 🌹 runner 🏃 russia 🇷🇺 rwanda 🇷🇼 sa 🈂 sake 🍶 salt 🧂 samoa 🇼🇸",
   "sandal 👡 santa 🎅 sari 🥻 scales ⚖ scarf 🧣 school 🏫 scissors ✂ scream 😱 scroll 📜 seat 💺 secret ㊙",
   "selfie 🤳 serbia 🇷🇸 seven 7️⃣ shark 🦈 sheep 🐑 shell 🐚 shield 🛡 ship 🚢 shirt 👕 shit 💩 shoe 👞",
   "shorts 🩳 shower 🚿 shrimp 🦐 six 6️⃣ ski 🎿 skier ⛷ skis 🎿 skull 💀 skull_and_crossbones ☠ skunk 🦨",
   "sled 🛷 sleepy 😪 sloth 🦥 smile 😄 smile_cat 😸 smiley 😃 smirk 😏 snail 🐌 snake 🐍 snowflake ❄",
   "snowman ☃ soap 🧼 sob 😭 soccer ⚽ socks 🧦 soon 🔜 sos 🆘 sound 🔉 spades ♠ spain 🇪🇸 sparkles ✨",
   "spider 🕷 sponge 🧽 spoon 🥄 squid 🦑 star ⭐ star2 🌟 stars 🌠 stew 🍲 stop_sign 🛑 sudan 🇸🇩 sun ☀",
   "sunglasses 😎 sunny ☀ sunset 🌇 surfer 🏄 sushi 🍣 swan 🦢 sweat 😓 sweden 🇸🇪 syria 🇸🇾 t-rex 🦖",
   "taco 🌮 tada 🎉 taiwan 🇹🇼 taurus ♉ taxi 🚕 tea 🍵 telephone ☎ ten 🔟 tennis 🎾 tent ⛺",
   "thinking_face 🤔 thread 🧵 three 3️⃣ thumbs_down 👎 thumbs_up 👍 thumbsup 👍 ticket 🎫 tiger 🐯",
   "tiger2 🐅 tm ™ togo 🇹🇬 toilet 🚽 tomato 🍅 tonga 🇹🇴 tongue 👅 tooth 🦷 top 🔝 tophat 🎩 train 🚋",
   "train2 🚆 tram 🚊 trophy 🏆 truck 🚚 tshirt 👕 tulip 🌷 turkey 🦃 turtle 🐢 tuvalu 🇹🇻 tv 📺 two 2️⃣",
   "u5272 🈹 u5408 🈴 u55b6 🈺 u6307 🈯 u6708 🈷 u6709 🈶 u6e80 🈵 u7121 🈚 u7533 🈸 u7981 🈲 u7a7a 🈳",
   "uganda 🇺🇬 umbrella ☂ unlock 🔓 up 🆙 v ✌ vampire 🧛 vhs 📼 violin 🎻 virgo ♍ vs 🆚 waffle 🧇",
   "wales 🏴󠁧󠁢󠁷󠁬󠁳󠁿 warning ⚠ watch ⌚ wave 👋 waving_hand 👋 wc 🚾 weary 😩 whale 🐳 whale2 🐋",
   "white_check_mark ✅ wink 😉 wolf 🐺 woman 👩 womens 🚺 wrench 🔧 x ❌ yarn 🧶 yemen 🇾🇪 yen 💴 yo-yo 🪀",
   "yum 😋 zambia 🇿🇲 zap ⚡ zebra 🦓 zero 0️⃣ zombie 🧟 zzz 💤"]

def emojiPairs : List (List Char) → List (List Char × List Char)
  | name :: emoji :: rest => (name, emoji) :: emojiPairs rest
  | _ => []

def emojiTable : List (List Char × List Char) :=
  emojiNames.flatMap fun names => emojiPairs (Text.pieces ' ' names.toList)

def emojiVariants : List (List Char × Char) :=
  [("-emoji".toList, '\ufe0f'), ("-text".toList, '\ufe0e')]

def splitVariant (name : List Char) : List Char × List Char :=
  match emojiVariants.find? fun v => v.1.isSuffixOf name with
  | some (ending, selector) => (name.take (name.length - ending.length), [selector])
  | none => (name, [])

def emoji? (name : List Char) : Option (List Char) :=
  let (name, selector) := splitVariant name
  (emojiTable.lookup (Text.lower name)).map (· ++ selector)

def replaceEmoji (cs : List Char) : List Char :=
  match cs with
  | [] => []
  | ':' :: rest =>
    let name := rest.takeWhile fun c => c ≠ ':' && !Text.isBlank c
    match h : rest.dropWhile fun c => c ≠ ':' && !Text.isBlank c with
    | ':' :: after =>
      have : after.length < rest.length := by
        have := Text.length_dropWhile_le (fun c => c ≠ ':' && !Text.isBlank c) rest
        simp only [h, List.length_cons] at this
        omega
      (emoji? name).getD (':' :: name ++ [':']) ++ replaceEmoji after
    | _ => ':' :: replaceEmoji rest
  | c :: rest => c :: replaceEmoji rest
termination_by cs.length

end TagTemplate.Console
