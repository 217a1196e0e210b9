import AnswerKey.Text.Search

namespace AnswerKey.Launcher

open Text

def sentinel : String := "__SNIPCHECK_RESULT__"

def valueLimitMarker : String := "__SNIPCHECK_VALUE_LIMIT__"

def className : String := "SnipcheckLauncher"

/-- The lines of a class that calls `main` of the class `__CLASS__` and prints what it returns as JSON, after
the text `__SENTINEL__`. -/
def template : List String := [
  "import java.lang.reflect.Array;",
  "import java.util.Map;",
  "",
  "public class SnipcheckLauncher \x7b",
  "    public static void main(String[] args) throws Exception \x7b",
  "        Object answers = __CLASS__.main(args);",
  "        System.out.println(\x22__SENTINEL__\x22 + toJson(answers));",
  "    \x7d",
  "",
  "    static String toJson(Object value) \x7b",
  "        if (value == null) \x7b",
  "            return \x22null\x22;",
  "        \x7d",
  "        if (value instanceof Boolean || value instanceof Integer || value instanceof Long",
  "                || value instanceof Short || value instanceof Byte) \x7b",
  "            return value.toString();",
  "        \x7d",
  "        if (value instanceof Double || value instanceof Float) \x7b",
  "            double d = ((Number) value).doubleValue();",
  "            if (Double.isNaN(d) || Double.isInfinite(d)) \x7b",
  "                return quote(value.toString());",
  "            \x7d",
  "            return Double.toString(d);",
  "        \x7d",
  "        if (value instanceof Character || value instanceof CharSequence) \x7b",
  "            return quote(value.toString());",
  "        \x7d",
  "        StringBuilder sb = new StringBuilder();",
  "        if (value.getClass().isArray()) \x7b",
  "            sb.append('[');",
  "            for (int i = 0; i < Array.getLength(value); i++) \x7b",
  "                if (i > 0) sb.append(',');",
  "                sb.append(toJson(Array.get(value, i)));",
  "            \x7d",
  "            return sb.append(']').toString();",
  "        \x7d",
  "        if (value instanceof Iterable) \x7b",
  "            sb.append('[');",
  "            boolean first = true;",
  "            for (Object item : (Iterable<?>) value) \x7b",
  "                if (!first) sb.append(',');",
  "                sb.append(toJson(item));",
  "                first = false;",
  "            \x7d",
  "            return sb.append(']').toString();",
  "        \x7d",
  "        if (value instanceof Map) \x7b",
  "            sb.append('\x7b');",
  "            boolean first = true;",
  "            for (Map.Entry<?, ?> e : ((Map<?, ?>) value).entrySet()) \x7b",
  "                if (!first) sb.append(',');",
  "                sb.append(quote(String.valueOf(e.getKey()))).append(':').append(toJson(e.getValue()));",
  "                first = false;",
  "            \x7d",
  "            return sb.append('\x7d').toString();",
  "        \x7d",
  "        return quote(value.toString());",
  "    \x7d",
  "",
  "    static String quote(String s) \x7b",
  "        StringBuilder sb = new StringBuilder(\x22\\\x22\x22);",
  "        for (char c : s.toCharArray()) \x7b",
  "            switch (c) \x7b",
  "                case '\x22': sb.append(\x22\\\\\\\x22\x22); break;",
  "                case '\\\\': sb.append(\x22\\\\\\\\\x22); break;",
  "                case '\\n': sb.append(\x22\\\\n\x22); break;",
  "                case '\\r': sb.append(\x22\\\\r\x22); break;",
  "                case '\\t': sb.append(\x22\\\\t\x22); break;",
  "                default:",
  "                    if (c < 0x20) sb.append(String.format(\x22\\\\u%04x\x22, (int) c));",
  "                    else sb.append(c);",
  "            \x7d",
  "        \x7d",
  "        return sb.append('\x22').toString();",
  "    \x7d",
  "\x7d"]

def source (target : List Char) : List Char :=
  replace "__SENTINEL__".toList sentinel.toList <|
    replace "__CLASS__".toList target (template.flatMap fun line ↦ line.toList ++ ['\n'])

end AnswerKey.Launcher
